import BlockWorkbench.Script.Machine
import BlockWorkbench.Script.Operator

/-!
What the functions do that every script can call, the methods of texts, lists and dictionaries,
and the making of errors.
-/

namespace BlockWorkbench.Script

/-- Where `pivot` belongs among the sorted items from `low` to below `high`: behind all that it
is not less than. -/
def insertionPoint (less : Value → Value → Except RuntimeFault Bool) (items : Array Value)
    (pivot : Value) (low high : Nat) : Except RuntimeFault Nat :=
  if _h : low < high then do
    let middle := low + (high - low) / 2
    if ← less pivot (items.getD middle .none) then insertionPoint less items pivot low middle
    else insertionPoint less items pivot (middle + 1) high
  else .ok low
termination_by high - low
decreasing_by all_goals omega

/-- Items put into a sorted array one by one. -/
def insertAll (less : Value → Value → Except RuntimeFault Bool) (items : Array Value) :
    List Value → Except RuntimeFault (Array Value)
  | [] => .ok items
  | v :: rest => do
    let i ← insertionPoint less items v 0 items.size
    insertAll less ((items.toList.insertIdx i v).toArray) rest

/-- The run at the start of `v :: rest` in which each item is less than the one before it, or
none is: the run, last item first, and what follows it. -/
def leadingRun (less : Value → Value → Except RuntimeFault Bool) (falling : Bool)
    (run : List Value) (v : Value) : List Value → Except RuntimeFault (List Value × List Value)
  | [] => .ok (v :: run, [])
  | w :: rest => do
    if (← less w v) == falling then leadingRun less falling (v :: run) w rest
    else return (v :: run, w :: rest)

/-- Stable sort: the run at the start is taken as it is, or turned round if it falls, and the
rest is inserted. -/
def sortValues (less : Value → Value → Except RuntimeFault Bool) :
    List Value → Except RuntimeFault (Array Value)
  | [] => .ok #[]
  | [v] => .ok #[v]
  | v :: w :: rest => do
    let falling ← less w v
    let (run, rest) ← leadingRun less falling [] v (w :: rest)
    insertAll less (if falling then run else run.reverse).toArray rest

/-- The best of `best :: rest`, where `better v best` prefers the later `v`. -/
def bestOf (better : Value → Value → Except RuntimeFault Bool) (best : Value) :
    List Value → Except RuntimeFault Value
  | [] => .ok best
  | v :: rest => do bestOf better (if ← better v best then v else best) rest

namespace Store

/-- The sum of values, added to `total` one by one. -/
def addUp (s : Store) (total : Value) : List Value → Except RuntimeFault (Value × Store)
  | [] => .ok (total, s)
  | v :: rest => do
    let (total, s) ← s.operate false .add total v
    addUp s total rest

/-- Texts with `separator` between them. -/
def joinTexts (s : Store) (index : Nat) : List Value → Except RuntimeFault (List Points)
  | [] => .ok []
  | .str t :: rest => do return t :: (← joinTexts s (index + 1) rest)
  | v :: _ => .error (.notText index (s.typeName v))

/-- An integer argument that no float may stand for. -/
def indexArgument (s : Store) (v : Value) : Except RuntimeFault Int :=
  match v.integer? with
  | some n => .ok n
  | none => .error (.notAnIndex (s.typeName v))

def makeRange (s : Store) : List Value → Except RuntimeFault Value
  | [] => .error (.expectedAtLeast "range" 1 0)
  | [stop] => do return .range 0 (← s.indexArgument stop) 1
  | [start, stop] => do return .range (← s.indexArgument start) (← s.indexArgument stop) 1
  | [start, stop, step] => do
    let start ← s.indexArgument start
    let stop ← s.indexArgument stop
    let step ← s.indexArgument step
    if step = 0 then throw .zeroStep else return .range start stop step
  | args => .error (.expectedAtMost "range" 3 args.length)

/-- The greatest or the least of the arguments, or of the items of a single one. -/
def extreme (s : Store) (name : String) (op : OrderOp) (args : List Value) :
    Except RuntimeFault Value := do
  let items ← match args with
    | [] => throw (.expectedAtLeast name 1 0)
    | [v] => s.elements v
    | args => pure args
  match items with
  | [] => throw (.noItems name)
  | v :: rest => bestOf (s.ordered op) v rest

end Store

/-- Takes one argument. -/
def single (name : String) (args : List Value) (f : Value → Run Value) : Run Value :=
  match args with
  | [v] => f v
  | args => .fault (.notExactly name 1 args.length)

/-- Takes one argument, or none for a value of its own. -/
def optionalSingle (name : String) (nothing : Run Value) (args : List Value)
    (f : Value → Run Value) : Run Value :=
  match args with
  | [] => nothing
  | [v] => f v
  | args => .fault (.expectedAtMost name 1 args.length)

/-- Registers a module of a kind. -/
def registerModule (kind : RegisteredKind) (spec : Value) : Run Value := fun m =>
  match m.registry.register m.store kind spec with
  | .ok registry => (.value .none, { m with registry := registry })
  | .error f => (.raised (.fault f), m)

/-- A call of a function that acts on the registry, which counts as its first argument. -/
def callRegister (callee : String) (kind : RegisteredKind) : List Value → Run Value
  | [spec] => registerModule kind spec
  | [] => .fault (.missingArguments callee ["spec"])
  | args => .fault (.tooManyArguments callee 2 2 (args.length + 1))

def callManifest (callee : String) : List Value → Run Value
  | [] => fun m =>
    match m.registry.manifestText m.store with
    | .ok text => (.value (.str (.ofString text)), m)
    | .error f => (.raised (.fault f), m)
  | args => .fault (.tooManyArguments callee 1 1 (args.length + 1))

def Builtin.call (b : Builtin) (args : List Value) : Run Value :=
  match b with
  | .len => single "len" args fun v => do return .int (← Run.ask (·.length v))
  | .repr => single "repr" args fun v => do
    return .str (.ofString (← Run.ask (·.literal v)))
  | .abs => single "abs" args fun v =>
    match v.number? with
    | some n => .value (.ofNumber (absolute n))
    | none => .ask fun s => .error (.badOperand "abs()" (s.typeName v))
  | .str =>
    match args with
    | [] => .value (.str [])
    | [v] => do return .str (← Run.ask (·.plain v))
    | args => .fault (.takesAtMost "str" 3 args.length)
  | .int =>
    match args with
    | [] => .value (.int 0)
    | [v] => do return .int (← Run.ask (·.toInt v))
    | args => .fault (.takesAtMost "int" 2 args.length)
  | .float => optionalSingle "float" (.value (.float 0.0)) args fun v => do
    return .float (← Run.ask (·.toFloat v))
  | .bool => optionalSingle "bool" (.value (.bool false)) args fun v => do
    return .bool (← Run.look (·.isTruthy v))
  | .list => optionalSingle "list" (.make (·.addList #[])) args fun v => do
    let items ← Run.ask (·.elements v)
    Run.make (·.addList items.toArray)
  | .range => .ask (·.makeRange args)
  | .sum =>
    match args with
    | [v] => .act fun s => do s.addUp (.int 0) (← s.elements v)
    | [v, .str _] => .ask fun s => do
      let _ ← s.elements v
      throw .textSum
    | [v, start] => .act fun s => do s.addUp start (← s.elements v)
    | [] => .fault (.takesAtLeast "sum" 1 0)
    | args => .fault (.takesAtMost "sum" 2 args.length)
  | .min => .ask (·.extreme "min" .less args)
  | .max => .ask (·.extreme "max" .greater args)
  | .sorted =>
    match args with
    | [v] => do
      let items ← Run.ask fun s => do sortValues (s.ordered .less) (← s.elements v)
      Run.make (·.addList items)
    | args => .fault (.expectedExactly "sorted" 1 args.length)
  | .addMap => callRegister "ScriptEngine.add_mfn" .map args
  | .addStore => callRegister "ScriptEngine.add_sfn" .store args
  | .manifest => callManifest "ScriptEngine.codegen" args

/-- The method of a value with some name. -/
def Value.method? : Value → String → Option Method
  | .list _, "append" => some .append
  | .str _, "upper" => some .upper
  | .str _, "join" => some .join
  | .dict _, "get" => some .get
  | _, _ => Option.none

/-- The attribute of a value with some name. -/
def Value.attribute (v : Value) (name : String) : Run Value :=
  match v.method? name with
  | some m => .value (.method m v)
  | Option.none =>
    match v with
    | .errorClass kind => .fault (.noTypeAttribute kind.text name)
    | .builtin b =>
      if b.isType then .fault (.noTypeAttribute b.name name)
      else .ask fun s => .error (.noAttribute (s.typeName v) name)
    | v => .ask fun s => .error (.noAttribute (s.typeName v) name)

def Method.call (m : Method) (receiver : Value) (args : List Value) : Run Value :=
  match m, receiver with
  | .append, .list a =>
    match args with
    | [v] => do
      Run.change (·.modifyList a (·.push v))
      return .none
    | args => .fault (.notExactly "list.append" 1 args.length)
  | .upper, .str t =>
    match args with
    | [] => .value (.str t.upper)
    | args => .fault (.notExactly "str.upper" 0 args.length)
  | .join, .str t =>
    match args with
    | [v] => .ask fun s =>
      match s.elements v with
      | .ok items => do return .str (List.intercalate t (← s.joinTexts 0 items))
      | .error _ => .error .notJoinable
    | args => .fault (.notExactly "str.join" 1 args.length)
  | .get, .dict a =>
    match args with
    | [] => .fault (.expectedAtLeast "get" 1 0)
    | [key] => .ask fun s => do return (valueAt? (s.entries a) (← key.asKey)).getD .none
    | [key, other] => .ask fun s => do return (valueAt? (s.entries a) (← key.asKey)).getD other
    | args => .fault (.expectedAtMost "get" 2 args.length)
  | m, v => .ask fun s => .error (.noAttribute (s.typeName v) m.name)

/-- The kind of a system error, which its number may make a more special one. -/
def systemKind (kind : ErrorKind) (number : Value) : ErrorKind :=
  if kind = .os then (number.integer?.map ErrorKind.ofErrno).getD kind else kind

/-- The error that a call of its kind makes. System errors with two to five arguments say their
number and text, and files named after these are no longer arguments. -/
def ErrorObject.make (kind : ErrorKind) (args : List Value) : ErrorObject :=
  let file (v : Value) : Option Value := match v with
    | .none => none
    | v => some v
  if kind.isSystem then
    match args with
    | [number, text] => ⟨systemKind kind number, args, some ⟨number, text, none, none⟩⟩
    | number :: text :: name :: rest =>
      if 3 < rest.length + 1 then ⟨kind, args, none⟩
      else
        match file name with
        | none => ⟨systemKind kind number, args, some ⟨number, text, none, none⟩⟩
        | some f =>
          let target? := rest[1]?.bind file
          ⟨systemKind kind number, [number, text], some ⟨number, text, some f, target?⟩⟩
    | args => ⟨kind, args, none⟩
  else ⟨kind, args, none⟩

end BlockWorkbench.Script
