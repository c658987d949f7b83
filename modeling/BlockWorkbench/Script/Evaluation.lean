import BlockWorkbench.Script.Builtin
import BlockWorkbench.Script.Check

/-!
How scripts run. Expressions and statements run with fuel, which bounds how deep they nest and
how often each loop turns; calls are bounded besides, and to nest them too deep is an error of
the script.
-/

namespace BlockWorkbench.Script

/-- How many calls may be under way at a time. -/
def callLimit : Nat := 960

/-- Where statements run: at top level, or in the frame of a call. -/
abbrev Place := Option Address

/-- The value of a name in the frames around a function; nothing if none of them owns it. -/
def Store.outerValue? (s : Store) (name : String) :
    Nat → Place → Option (Except RuntimeFault Value)
  | 0, _ => none
  | _, none => none
  | n + 1, some a =>
    let f := s.frame a
    if f.locals.contains name then
      some (match bound? f.bindings name with
        | some v => .ok v
        | none => .error (.unboundOuter name))
    else s.outerValue? name n f.outer?

/-- The name under which scripts find the dictionary of the predefined names. It is bound anew for
every run; what a script binds to it serves in place of the dictionary from then on. -/
def predefinedNames : String := "__builtins__"

/-- The value that a name has when nothing was assigned to it: an item of `names`. -/
def Store.predefinedValue (s : Store) (names : Value) (name : String) :
    Except RuntimeFault Value :=
  match s.item names (.str name) with
  | .error (.missingKey _) => .error (.undefinedName name)
  | found => found

/-- The value of a name at top level, or the one it has when nothing was assigned to it. -/
def Machine.globalValue (m : Machine) (names : Value) (name : String) :
    Except RuntimeFault Value :=
  match bound? m.scope name with
  | some v => .ok v
  | none => m.store.predefinedValue names name

/-- What a part of a script that starts to run finds the predefined names in. -/
def Machine.namesAtHand (m : Machine) : Value :=
  (bound? m.scope predefinedNames).getD .predefinedDict

/-- The value of a name: of a function's own, of a function around it, or global. -/
def Machine.valueOf (m : Machine) (place : Place) (name : String) : Except RuntimeFault Value :=
  match place with
  | none => m.globalValue m.names name
  | some a =>
    let f := m.store.frame a
    if f.locals.contains name then
      match bound? f.bindings name with
      | some v => .ok v
      | none => .error (.unboundLocal name)
    else
      (m.store.outerValue? name m.store.frames.size f.outer?).getD (m.globalValue f.names name)

namespace Run

/-- Reads a name. -/
def nameValue (place : Place) (name : String) : Run Value := fun m =>
  match m.valueOf place name with
  | .ok v => (.value v, m)
  | .error f => (.raised (.fault f), m)

/-- Binds a name where statements run. -/
def bindName (place : Place) (name : String) (v : Value) : Run Unit := fun m =>
  match place with
  | none => (.value (), { m with scope := bind m.scope name v })
  | some a => (.value (), { m with store := m.store.bindLocal a name v })

/-- Writes an item. -/
def setItem (v key value : Value) : Run Unit :=
  Run.act fun s => do return ((), ← s.setItem v key value)

/-- One more call under way while `x` runs. -/
def nested {α : Type} (x : Run α) : Run α := fun m =>
  if callLimit ≤ m.depth then (.raised (.fault .tooDeep), m)
  else
    let (outcome, m') := x { m with depth := m.depth + 1 }
    (outcome, { m' with depth := m.depth })

end Run

/-- Exactly `expected` values of a value that is taken apart. -/
def Store.unpack (s : Store) (expected : Nat) (v : Value) : Except RuntimeFault (List Value) :=
  match s.elements v with
  | .error _ => .error (.notUnpackable (s.typeName v))
  | .ok items =>
    if items.length < expected then .error (.tooFewValues expected items.length)
    else if expected < items.length then .error (.tooManyValues expected)
    else .ok items

/-- The complaint about an attribute that is assigned to. -/
def Value.setAttribute (v : Value) (name : String) : Run Unit :=
  match v.method? name with
  | some _ => .ask fun s => .error (.readOnly (s.typeName v) name)
  | Option.none => do
    let _ ← v.attribute name

mutual

/-- Assigns a value, where `eval` evaluates the expressions in a target. -/
def Target.assign (eval : Expr → Run Value) (place : Place) : Target → Value → Run Unit
  | .name n, v => Run.bindName place n v
  | .index e key, v => do
    let container ← eval e
    let key ← eval key
    Run.setItem container key v
  | .member e n, _ => do (← eval e).setAttribute n
  | .tuple targets, v => do
    let values ← Run.ask (·.unpack targets.length v)
    assignEach eval place targets values

def assignEach (eval : Expr → Run Value) (place : Place) : List Target → List Value → Run Unit
  | t :: targets, v :: values => do
    t.assign eval place v
    assignEach eval place targets values
  | _, _ => Run.value ()

end

/-- Assigns the value of an operation to its first operand. -/
def Target.augment (eval : Expr → Run Value) (place : Place) (op : BinaryOp) (operand : Expr) :
    Target → Run Unit
  | .name n => do
    let old ← Run.nameValue place n
    let v ← eval operand
    Run.bindName place n (← Run.act (·.operateInPlace op old v))
  | .index e key => do
    let container ← eval e
    let key ← eval key
    let old ← Run.ask (·.item container key)
    let v ← eval operand
    Run.setItem container key (← Run.act (·.operateInPlace op old v))
  | .member e n => do
    let _ ← (← eval e).attribute n
  | .tuple _ => Run.value ()

/-- Comparisons in a row: each compares neighbours, up to the first that does not hold. -/
def compareInRow (eval : Expr → Run Value) (a : Value) :
    List (CompareOp × Expr) → Run Value
  | [] => Run.value a
  | (op, e) :: rest => do
    let b ← eval e
    let holds ← Run.ask (·.compareBy op a b)
    match rest with
    | [] => return .bool holds
    | rest => if holds then compareInRow eval b rest else return .bool false

/-- Entries put into a dictionary one by one. -/
def dictOf (entries : List (Value × Value)) : List (Value × Value) →
    Except RuntimeFault (List (Value × Value))
  | [] => .ok entries
  | (key, v) :: rest => do dictOf (setEntry entries (← key.asKey) v) rest

/-- The names of a call: parameters with arguments, and with defaults where arguments end. -/
def bindArguments (f : FunctionObject) (args : List Value) :
    Except RuntimeFault (List (String × Value)) :=
  let required := f.params.length - f.defaults.length
  if f.params.length < args.length then
    .error (.tooManyArguments f.path required f.params.length args.length)
  else if args.length < required then
    .error (.missingArguments f.path ((f.params.take required).drop args.length))
  else .ok (f.params.zip (args ++ f.defaults.drop (args.length - required)))

/-- Raises a value, which must be an error or a kind of error. -/
def raiseValue : Value → Run Flow
  | .error a => .raised (.error a)
  | .errorClass kind => do
    match ← Run.make (·.addError (.make kind [])) with
    | .error a => Run.raised (.error a)
    | _ => Run.fault .notAnError
  | _ => .fault .notAnError

/-- The function that a definition makes where it stands. -/
def makeFunction (place : Place) (name : String) (params : List Param) (body : List Stmt)
    (defaults : List Value) : Run Value := fun m =>
  let path := match place with
    | none => name
    | some a => (m.store.frame a).path ++ ".<locals>." ++ name
  let names := params.map (·.name)
  let (f, s) := m.store.addFunction ⟨path, names, defaults, body, names ++ boundNames body, place,
    m.namesAtHand⟩
  (.value f, { m with store := s })

mutual

def eval (fuel : Nat) (place : Place) (e : Expr) : Run Value :=
  match fuel with
  | 0 => Run.exhausted
  | fuel + 1 =>
    match e with
    | .none => Run.value .none
    | .bool b => Run.value (.bool b)
    | .int n => Run.value (.int n)
    | .float x => Run.value (.float x)
    | .str t => Run.value (.str t)
    | .name name => Run.nameValue place name
    | .list items => do
      let values ← Run.each (eval fuel place) items
      Run.make (·.addList values.toArray)
    | .tuple items => do return .tuple (← Run.each (eval fuel place) items)
    | .dict entries => do
      let pairs ← Run.each (fun (k, v) => do return (← eval fuel place k, ← eval fuel place v))
        entries
      Run.act fun s => do return s.addDict (← dictOf [] pairs)
    | .unary op e => do
      let v ← eval fuel place e
      Run.ask (·.unary op v)
    | .binary op a b => do
      let v ← eval fuel place a
      let w ← eval fuel place b
      Run.act (·.operate false op v w)
    | .compare first rest => do compareInRow (eval fuel place) (← eval fuel place first) rest
    | .both a b => do
      let v ← eval fuel place a
      if ← Run.look (·.isTruthy v) then eval fuel place b else return v
    | .either a b => do
      let v ← eval fuel place a
      if ← Run.look (·.isTruthy v) then return v else eval fuel place b
    | .not e => do
      let v ← eval fuel place e
      return .bool !(← Run.look (·.isTruthy v))
    | .conditional test whenTrue whenFalse => do
      let v ← eval fuel place test
      if ← Run.look (·.isTruthy v) then eval fuel place whenTrue
      else eval fuel place whenFalse
    | .index e key => do
      let v ← eval fuel place e
      let key ← eval fuel place key
      Run.ask (·.item v key)
    | .member e name => do (← eval fuel place e).attribute name
    | .call f args => do
      let f ← eval fuel place f
      call fuel f (← Run.each (eval fuel place) args)

/-- Calls a value. -/
def call (fuel : Nat) (f : Value) (args : List Value) : Run Value :=
  match fuel with
  | 0 => Run.exhausted
  | fuel + 1 =>
    match f with
    | .function a => do
      let f ← Run.look (·.function a)
      let bindings ← Run.ask fun _ => bindArguments f args
      Run.nested do
        let frame ← Run.make (·.addFrame ⟨f.path, f.locals, bindings, f.outer?, f.names⟩)
        match ← Flow.sequence (exec fuel (some frame)) f.body with
        | .back v => return v
        | _ => return .none
    | .builtin b => b.call args
    | .errorClass kind => Run.make (·.addError (.make kind args))
    | .method m receiver => m.call receiver args
    | v => Run.ask fun s => .error (.notCallable (s.typeName v))

def exec (fuel : Nat) (place : Place) (stmt : Stmt) : Run Flow :=
  match fuel with
  | 0 => Run.exhausted
  | fuel + 1 =>
    match stmt with
    | .expr e => do
      let _ ← eval fuel place e
      return .next
    | .assign targets e => do
      let v ← eval fuel place e
      Run.eachDo (fun t => t.assign (eval fuel place) place v) targets
      return .next
    | .augment target op e => do
      target.augment (eval fuel place) place op e
      return .next
    | .pass => return .next
    | .define name params body => do
      let defaults ← Run.each (eval fuel place) (params.filterMap (·.default?))
      Run.bindName place name (← makeFunction place name params body defaults)
      return .next
    | .branch test body orelse => do
      let v ← eval fuel place test
      let taken ← Run.look (·.isTruthy v)
      Flow.sequence (exec fuel place) (if taken then body else orelse)
    | .forEach target items body orelse => do
      let v ← eval fuel place items
      let cursor ← Run.ask (Cursor.start · v)
      let turn := fun v => do
        target.assign (eval fuel place) place v
        Flow.sequence (exec fuel place) body
      match ← Flow.repeatOver turn fuel cursor with
      | none => Flow.sequence (exec fuel place) orelse
      | some flow => return flow
    | .loop test body orelse => do
      let holds := do
        let v ← eval fuel place test
        Run.look (·.isTruthy v)
      match ← Flow.repeatWhile holds (Flow.sequence (exec fuel place) body) fuel with
      | none => Flow.sequence (exec fuel place) orelse
      | some flow => return flow
    | .break => return .leave
    | .continue => return .again
    | .return none => return .back .none
    | .return (some e) => do return .back (← eval fuel place e)
    | .raise none => Run.fault .nothingToReraise
    | .raise (some e) => do raiseValue (← eval fuel place e)

end

/-- Runs statements at top level. -/
def runAll (fuel : Nat) (program : Program) : Run Unit := do
  let _ ← Flow.sequence (exec fuel none) program

/-- The expression that ends a program, with the statements before it. -/
def splitResult (program : Program) : Program × Option Expr :=
  match program.getLast? with
  | some (.expr e) => (program.dropLast, some e)
  | _ => (program, none)

namespace Run

/-- Binds the dictionary of the predefined names anew. What scripts have put into it stays. -/
def restoreNames : Run Unit := fun m =>
  (.value (), { m with
    scope := bind m.scope predefinedNames .predefinedDict
    names := .predefinedDict })

/-- Lets what is bound in place of the predefined names serve at top level. -/
def adoptNames : Run Unit := fun m => (.value (), { m with names := m.namesAtHand })

end Run

/-- Runs a program. Its value is that of the expression that it ends with, if it ends with
one. -/
def evalProgram (fuel : Nat) (program : Program) : Run Value := do
  let (body, result?) := splitResult program
  Run.restoreNames
  runAll fuel body
  match result? with
  | some e =>
    Run.adoptNames
    eval fuel none e
  | none => return .none

end BlockWorkbench.Script
