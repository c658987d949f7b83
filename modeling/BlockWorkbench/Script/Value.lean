import BlockWorkbench.ErrorKind
import BlockWorkbench.Number.Basic
import BlockWorkbench.Text.Points

/-!
The values of scripts. Values that can change are kept in a store and known by their address, so
that two names may stand for one list.
-/

namespace BlockWorkbench.Script

/-- Where an object is kept. -/
abbrev Address := Nat

/-- The functions that every script can call. -/
inductive Builtin where
  | len
  | str
  | int
  | float
  | bool
  | list
  | range
  | sum
  | min
  | max
  | abs
  | sorted
  | repr
  /-- Registers a map module. -/
  | addMap
  /-- Registers a store module. -/
  | addStore
  /-- Writes the manifest of the registered modules. -/
  | manifest
  deriving DecidableEq, Repr

namespace Builtin

/-- The functions with the names that scripts know them by. -/
def named : List (String × Builtin) := [
  ("len", .len), ("str", .str), ("int", .int), ("float", .float), ("bool", .bool),
  ("list", .list), ("range", .range), ("sum", .sum), ("min", .min), ("max", .max),
  ("abs", .abs), ("sorted", .sorted), ("repr", .repr), ("add_mfn", .addMap),
  ("add_sfn", .addStore), ("codegen", .manifest)]

def name (b : Builtin) : String := ((named.find? (·.2 == b)).map (·.1)).getD ""

/-- Whether a function is also the type of the values it makes. -/
def isType : Builtin → Bool
  | str | int | float | bool | list | range => true
  | _ => false

/-- Whether a function acts on the registry of the engine. -/
def isEngine : Builtin → Bool
  | addMap | addStore | manifest => true
  | _ => false

end Builtin

/-- The functions that belong to a value. -/
inductive Method where
  | append
  | upper
  | join
  | get
  deriving DecidableEq, Repr

namespace Method

def name : Method → String
  | append => "append"
  | upper => "upper"
  | join => "join"
  | get => "get"

end Method

inductive Value where
  | none
  | bool (b : Bool)
  | int (n : Int)
  | float (x : Float)
  | str (s : Points)
  | tuple (items : List Value)
  | range (start stop step : Int)
  | list (a : Address)
  | dict (a : Address)
  | function (a : Address)
  | builtin (b : Builtin)
  | errorClass (kind : ErrorKind)
  | error (a : Address)
  | method (m : Method) (receiver : Value)
  deriving Repr, Inhabited

/-- The kinds of errors that scripts can make. -/
def errorClasses : List (String × ErrorKind) := [
  ("Exception", .exception), ("ValueError", .value), ("KeyError", .key), ("TypeError", .type),
  ("RuntimeError", .run), ("IndexError", .index), ("OSError", .os), ("SystemExit", .systemExit),
  ("KeyboardInterrupt", .keyboardInterrupt), ("GeneratorExit", .generatorExit),
  ("BaseException", .baseException)]

/-- What names mean when nothing was assigned to them. -/
def predefined : List (String × Value) :=
  Builtin.named.map (fun (name, b) => (name, .builtin b)) ++
    errorClasses.map fun (name, kind) => (name, .errorClass kind)

namespace Value

/-- The number that a value stands for; truth values count as 0 and 1. -/
def number? : Value → Option Number
  | .bool b => some (.int (if b then 1 else 0))
  | .int n => some (.int n)
  | .float x => some (.float x)
  | _ => Option.none

/-- The integer that a value stands for, floats not counted. -/
def integer? : Value → Option Int
  | .bool b => some (if b then 1 else 0)
  | .int n => some n
  | _ => Option.none

def ofNumber : Number → Value
  | .int n => .int n
  | .float x => .float x

/-- Whether a value can be called. -/
def isCallable : Value → Bool
  | .function _ | .builtin _ | .errorClass _ | .method .. => true
  | _ => false

end Value

end BlockWorkbench.Script
