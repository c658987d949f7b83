import BlockWorkbench.Json.Basic
import BlockWorkbench.Script.Program
import BlockWorkbench.Script.Value

/-!
The store of the objects that scripts make. Addresses are handed out in ascending order, one
sequence for each kind of object, and nothing is ever taken back. One object is there from the
beginning: the dictionary of the predefined names, which scripts can come by and change.
-/

namespace BlockWorkbench.Script

/-- A function of a script, with the values of its defaults and the frame it was made in. -/
structure FunctionObject where
  /-- Its name with the names of the functions around it. -/
  path : String
  params : List String
  /-- The defaults of the last parameters. -/
  defaults : List Value
  body : List Stmt
  /-- The names that are its own. -/
  locals : List String
  outer? : Option Address
  /-- Where it finds the predefined names: what they stood for together when it was made. -/
  names : Value
  deriving Inhabited

/-- What a system error says besides its arguments. -/
structure SystemDetail where
  number : Value
  text : Value
  file? : Option Value
  target? : Option Value
  deriving Inhabited

structure ErrorObject where
  kind : ErrorKind
  args : List Value
  detail? : Option SystemDetail := none

/-- The names of one call of a function. -/
structure Frame where
  path : String
  locals : List String
  bindings : List (String × Value)
  outer? : Option Address
  names : Value
  deriving Inhabited

structure Store where
  lists : Array (Array Value) := #[]
  dicts : Array (List (Value × Value)) :=
    #[predefined.map fun (name, v) => (.str (.ofString name), v)]
  functions : Array FunctionObject := #[]
  errors : Array ErrorObject := #[]
  frames : Array Frame := #[]

instance : Inhabited Store := ⟨{}⟩

/-- The dictionary of the predefined names. It is one for all scripts and stays as they leave it. -/
def Value.predefinedDict : Value := .dict 0

/-- The value bound to a name. -/
def bound? (bindings : List (String × Value)) (name : String) : Option Value :=
  (bindings.find? (·.1 == name)).map (·.2)

/-- Binds a name: in place if it is bound already, at the end if not. -/
def bind : List (String × Value) → String → Value → List (String × Value)
  | [], name, v => [(name, v)]
  | (n, w) :: rest, name, v => if n = name then (n, v) :: rest else (n, w) :: bind rest name v

namespace Store

def items (s : Store) (a : Address) : Array Value := s.lists.getD a #[]

def entries (s : Store) (a : Address) : List (Value × Value) := s.dicts.getD a []

def function (s : Store) (a : Address) : FunctionObject := s.functions.getD a default

def error (s : Store) (a : Address) : ErrorObject := s.errors.getD a ⟨.exception, [], none⟩

def frame (s : Store) (a : Address) : Frame := s.frames.getD a default

def addList (s : Store) (items : Array Value) : Value × Store :=
  (.list s.lists.size, { s with lists := s.lists.push items })

def addDict (s : Store) (entries : List (Value × Value)) : Value × Store :=
  (.dict s.dicts.size, { s with dicts := s.dicts.push entries })

def addFunction (s : Store) (f : FunctionObject) : Value × Store :=
  (.function s.functions.size, { s with functions := s.functions.push f })

def addError (s : Store) (e : ErrorObject) : Value × Store :=
  (.error s.errors.size, { s with errors := s.errors.push e })

def addFrame (s : Store) (f : Frame) : Address × Store :=
  (s.frames.size, { s with frames := s.frames.push f })

def modifyList (s : Store) (a : Address) (change : Array Value → Array Value) : Store :=
  { s with lists := s.lists.modify a change }

def setEntries (s : Store) (a : Address) (entries : List (Value × Value)) : Store :=
  { s with dicts := s.dicts.setIfInBounds a entries }

def setError (s : Store) (a : Address) (e : ErrorObject) : Store :=
  { s with errors := s.errors.setIfInBounds a e }

/-- Binds a name in a frame. -/
def bindLocal (s : Store) (a : Address) (name : String) (v : Value) : Store :=
  { s with
    frames := s.frames.modify a fun f => { f with bindings := bind f.bindings name v } }

/-- The name of the type of a value. -/
def typeName (s : Store) : Value → String
  | .none => "NoneType"
  | .bool _ => "bool"
  | .int _ => "int"
  | .float _ => "float"
  | .str _ => "str"
  | .tuple _ => "tuple"
  | .range .. => "range"
  | .list _ => "list"
  | .dict _ => "dict"
  | .function _ => "function"
  | .builtin b =>
    if b.isType then "type" else if b.isEngine then "method" else "builtin_function_or_method"
  | .errorClass _ => "type"
  | .error a => (s.error a).kind.text
  | .method .. => "builtin_function_or_method"

/-- Everything but none, false, zero and what is empty. -/
def isTruthy (s : Store) : Value → Bool
  | .none => false
  | .bool b => b
  | .int n => n != 0
  | .float x => x != 0.0
  | .str t => !t.isEmpty
  | .tuple items => !items.isEmpty
  | .range start stop step => if 0 < step then start < stop else stop < start
  | .list a => !(s.items a).isEmpty
  | .dict a => !(s.entries a).isEmpty
  | _ => true

mutual

/-- A JSON value as a value of scripts, its lists and objects new in the store. -/
def ofJson (s : Store) : Json Points → Value × Store
  | .null => (.none, s)
  | .bool b => (.bool b, s)
  | .int n => (.int n, s)
  | .float x => (.float x, s)
  | .str t => (.str t, s)
  | .list items =>
    let (values, s) := ofJsonItems s items
    s.addList values.toArray
  | .object fields =>
    let (entries, s) := ofJsonFields s fields
    s.addDict entries

def ofJsonItems (s : Store) : List (Json Points) → List Value × Store
  | [] => ([], s)
  | v :: rest =>
    let (value, s) := ofJson s v
    let (values, s) := ofJsonItems s rest
    (value :: values, s)

def ofJsonFields (s : Store) : List (Points × Json Points) → List (Value × Value) × Store
  | [] => ([], s)
  | (n, v) :: rest =>
    let (value, s) := ofJson s v
    let (entries, s) := ofJsonFields s rest
    ((.str n, value) :: entries, s)

end

end Store

end BlockWorkbench.Script
