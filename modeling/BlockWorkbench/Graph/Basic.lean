import BlockWorkbench.Graph.Module
import BlockWorkbench.Graph.Handler

/-!
The set of modules being edited. Modules are kept under ids that do not depend on their names,
in the order in which they were inserted.
-/

namespace BlockWorkbench

structure Graph where
  entries : List (Scalar × Module) := []
  /-- The id of the next module. -/
  next : Number := .int 1
  deriving Repr

namespace Graph

def ids (g : Graph) : List Scalar := g.entries.map (·.1)

def names (g : Graph) : List String := g.entries.map (·.2.name)

def size (g : Graph) : Nat := g.entries.length

def get? (g : Graph) (id : Scalar) : Option Module :=
  (g.entries.find? fun e => e.1.same id).map (·.2)

def contains (g : Graph) (id : Scalar) : Bool := (g.get? id).isSome

/-- The module of a name, with its id. Only text can be the name of a module. -/
def find? (g : Graph) (name : Json) : Option (Scalar × Module) :=
  match name with
  | .str s => g.entries.find? fun e => e.2.name == s
  | _ => none

/-- The module under an id that has to be present. -/
def lookup (g : Graph) (id : Json) : Except Fault (Scalar × Module) := do
  let key ← id.asKey
  match g.entries.find? fun e => e.1.same key with
  | some e => return e
  | none => throw (.missingKey id)

/-- Puts `m` under an id, in place of what it held or at the end. -/
def put (g : Graph) (id : Scalar) (m : Module) : Graph :=
  { g with entries := Json.setEntry g.entries id m }

def succ : Number → Number
  | .int n => .int (n + 1)
  | .float x => .float (x + 1.0)

def idOf : Number → Scalar
  | .int n => .int n
  | .float x => .float x

/-- Adds a module under a new id. -/
def insert (g : Graph) (m : Module) : Except Fault (Scalar × Graph) :=
  if (g.find? (.str m.name)).isSome then .error (.duplicateName m.name)
  else
    let id := idOf g.next
    .ok (id, { g.put id m with next := succ g.next })

/-- Takes a module out. Inputs that name it are left as they are. -/
def remove (g : Graph) (id : Json) : Except Fault (Module × Graph) :=
  if g.entries.isEmpty then .error (.missingKey id)
  else do
    let key ← id.asKey
    match g.get? key with
    | some m => return (m, { g with entries := g.entries.filter fun e => !e.1.same key })
    | none => throw (.missingKey id)

/-- Changes the module under an id. -/
def modify (g : Graph) (id : Json) (f : Module → Except Fault Module) : Except Fault Graph := do
  let (key, m) ← g.lookup id
  return g.put key (← f m)

def setInputs (g : Graph) (id inputs : Json) : Except Fault Graph := do
  let inputs ← inputs.elements
  g.modify id fun m => .ok { m with inputs }

def setCode (g : Graph) (id code : Json) : Except Fault Graph :=
  g.modify id fun m => .ok { m with code }

def setUpdatePolicy (g : Graph) (id policy : Json) : Except Fault Graph :=
  g.modify id fun m =>
    match m.kind with
    | .map => .error (.notAStore m.name)
    | .store _ => do return { m with kind := .store (← UpdatePolicy.parse policy) }

/-- An input with `old` replaced by `new`. -/
def redirect (old new : String) (input : Json) : Json :=
  match input with
  | .str s => if s = old then .str new else input
  | _ => input

/-- Every input that reads `old` reads `new`. -/
def redirectAll (g : Graph) (old new : String) : Graph :=
  { g with
    entries := g.entries.map fun (id, m) =>
      (id, { m with inputs := m.inputs.map (redirect old new) }) }

/-- What a rename did. -/
inductive Renaming where
  | unchanged
  | renamed (old new : String)
  deriving DecidableEq, Repr

/-- Renames a module, the definitions of its handler and all inputs that name it. Code that is
not text stops the rename when the module already has its new name. -/
def rename (g : Graph) (id newName : Json) : Except Fault Renaming × Graph :=
  match (do
    let (key, m) ← g.lookup id
    return (key, m, ← Module.checkName newName) : Except Fault (Scalar × Module × String)) with
  | .error f => (.error f, g)
  | .ok (key, m, new) =>
    if new = m.name then (.ok .unchanged, g)
    else if (g.find? (.str new)).isSome then (.error (.duplicateName new), g)
    else
      match m.code with
      | .str code =>
        let m' := { m with name := new, code := .str (Handler.rename code m.name new) }
        (.ok (.renamed m.name new), (g.put key m').redirectAll m.name new)
      | code => (.error (.notText code.typeName), g.put key { m with name := new })

/-- The places of the modules that name the module at `place` among their inputs. -/
def readersAt (g : Graph) (place : Nat) : List Nat :=
  match g.entries[place]? with
  | none => []
  | some (_, parent) =>
    (List.range g.size).filter fun i =>
      match g.entries[i]? with
      | none => false
      | some (_, m) => m.inputs.any fun input => input.same (.str parent.name)

/-- Looks for the readers of the modules at the places `remaining`, one after another. Those that
are not among the places found so far are looked at in turn. -/
def search (g : Graph) : Nat → List Nat → List Nat → List Nat
  | 0, _, found => found
  | _ + 1, [], found => found
  | fuel + 1, place :: remaining, found =>
    let new := (g.readersAt place).filter fun i => !found.contains i
    search g fuel (remaining ++ new) (found ++ new)

/-- The ids of the modules that depend on a module directly or indirectly, its own included. The
search is for places, since an id that the graph itself holds always finds its module; each place
is looked at once, so there are no more rounds than modules. -/
def dependents (g : Graph) (id : Json) : Except Fault (List Scalar) := do
  let key ← id.asKey
  match g.ids.findIdx? fun k => k.same key with
  | none => throw (.missingKey id)
  | some place =>
    let found := g.search g.size [place] [place]
    return (g.ids.zipIdx.filter fun e => found.contains e.2).map (·.1)

end Graph

end BlockWorkbench
