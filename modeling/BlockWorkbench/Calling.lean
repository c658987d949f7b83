import BlockWorkbench.Fault

/-!
Calls with named arguments: every name has to be that of a parameter, and every parameter without
a default value has to be named.
-/

namespace BlockWorkbench

structure Parameter where
  name : String
  default : Option (Json Points) := none
  deriving Repr

namespace Parameter

/-- A parameter that has to be given. -/
def required (name : String) : Parameter := { name }

def optional (name : String) (default : Json Points := .null) : Parameter :=
  { name, default := some default }

/-- The value under the name of a parameter. -/
def given? (named : List (Points × Json Points)) (p : Parameter) : Option (Json Points) :=
  Json.field? named p.name

/-- The first name that no parameter has. -/
def unknown? (params : List Parameter) (named : List (Points × Json Points)) : Option Points :=
  (named.map (·.1)).find? fun n => !(params.map fun p => Points.ofString p.name).contains n

/-- The parameters that have to be given and are not. -/
def missing (params : List Parameter) (named : List (Points × Json Points)) : List String :=
  (params.filter fun p => p.default.isNone && (given? named p).isNone).map (·.name)

/-- The value of a parameter in a call. -/
def value (named : List (Points × Json Points)) (p : Parameter) : Json Points :=
  ((given? named p).or p.default).getD .null

/-- The values of all parameters of `callee`, in their order. -/
def bind (callee : String) (params : List Parameter) (named : List (Points × Json Points)) :
    Except Fault (List (Json Points)) :=
  match unknown? params named with
  | some name => .error (.unexpectedArgument callee name)
  | none =>
    if (missing params named).isEmpty then .ok (params.map (value named))
    else .error (.missingArguments callee (missing params named))

end Parameter

end BlockWorkbench
