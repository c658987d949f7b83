import BlockWorkbench.Script.Registry

/-!
What a running script acts on, and computations that act on it. A computation ends with a value
or raises an error, unless it runs out of fuel first; whatever it did before stays done.
-/

namespace BlockWorkbench.Script

structure Machine where
  store : Store := {}
  /-- The names at top level. -/
  scope : List (String × Value) := []
  registry : Registry := []
  /-- Where the statement at top level that runs finds the predefined names. -/
  names : Value := .predefinedDict
  /-- How many calls are under way. -/
  depth : Nat := 0

/-- What is raised: an error that a script made, or a fault of the script. -/
inductive Raised where
  | error (a : Address)
  | fault (f : RuntimeFault)

inductive Outcome (α : Type) where
  | value (a : α)
  | raised (r : Raised)
  | exhausted

/-- A computation on a machine. -/
def Run (α : Type) : Type := Machine → Outcome α × Machine

namespace Run

variable {α β : Type}

@[inline] def value (a : α) : Run α := fun m => (.value a, m)

@[inline] def raised (r : Raised) : Run α := fun m => (.raised r, m)

@[inline] def fault (f : RuntimeFault) : Run α := fun m => (.raised (.fault f), m)

@[inline] def exhausted : Run α := fun m => (.exhausted, m)

@[inline] def andThen (x : Run α) (f : α → Run β) : Run β := fun m =>
  match x m with
  | (.value a, m) => f a m
  | (.raised r, m) => (.raised r, m)
  | (.exhausted, m) => (.exhausted, m)

instance : Monad Run where
  pure := value
  bind := andThen

/-- What the store says. -/
@[inline] def ask (question : Store → Except RuntimeFault α) : Run α := fun m =>
  match question m.store with
  | .ok a => (.value a, m)
  | .error f => (.raised (.fault f), m)

/-- A look at the store that cannot fail. -/
@[inline] def look (view : Store → α) : Run α := fun m => (.value (view m.store), m)

/-- A step that may change the store. -/
@[inline] def act (step : Store → Except RuntimeFault (α × Store)) : Run α := fun m =>
  match step m.store with
  | .ok (a, s) => (.value a, { m with store := s })
  | .error f => (.raised (.fault f), m)

/-- A step that changes the store and cannot fail. -/
@[inline] def make (step : Store → α × Store) : Run α := fun m =>
  let (a, s) := step m.store
  (.value a, { m with store := s })

/-- A change of the store. -/
@[inline] def change (step : Store → Store) : Run Unit := fun m =>
  (.value (), { m with store := step m.store })

/-- The results of one computation after another. -/
def each (f : α → Run β) : List α → Run (List β)
  | [] => value []
  | a :: rest => do
    let b ← f a
    let bs ← each f rest
    return b :: bs

/-- One computation after another. -/
def eachDo (f : α → Run Unit) : List α → Run Unit
  | [] => value ()
  | a :: rest => do
    f a
    eachDo f rest

end Run

/-- How a statement ends: it goes on, or leaves a loop, a turn of a loop, or a function. -/
inductive Flow where
  | next
  | leave
  | again
  | back (v : Value)

namespace Flow

/-- Runs statements up to the first that does not go on. -/
def sequence {α : Type} (run : α → Run Flow) : List α → Run Flow
  | [] => Run.value next
  | a :: rest => do
    match ← run a with
    | next => sequence run rest
    | flow => return flow

/-- Turns of a loop while a test holds. Nothing is given if the test fails in the end, and what
follows the loop if it was left before. -/
def repeatWhile (test : Run Bool) (body : Run Flow) : Nat → Run (Option Flow)
  | 0 => Run.exhausted
  | fuel + 1 => do
    if ← test then
      match ← body with
      | leave => return some next
      | back v => return some (back v)
      | _ => repeatWhile test body fuel
    else return none

/-- Turns of a loop, one for each item that a cursor comes to. -/
def repeatOver (body : Value → Run Flow) : Nat → Cursor → Run (Option Flow)
  | 0, _ => Run.exhausted
  | fuel + 1, cursor => do
    match ← Run.ask (Cursor.next · cursor) with
    | none => return none
    | some (v, cursor) =>
      match ← body v with
      | leave => return some next
      | back v => return some (back v)
      | _ => repeatOver body fuel cursor

end Flow

end BlockWorkbench.Script
