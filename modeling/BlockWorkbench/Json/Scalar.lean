import BlockWorkbench.Json.Literal

/-!
The JSON values that can serve as keys: everything but lists and objects. Keys are compared by
meaning, so `true`, `1` and `1.0` are one key.
-/

namespace BlockWorkbench

inductive Scalar (τ : Type := String) where
  | null
  | bool (b : Bool)
  | int (n : Int)
  | float (x : Float)
  | str (s : τ)
  deriving Repr

namespace Scalar

variable {τ : Type}

def toJson : Scalar τ → Json τ
  | .null => .null
  | .bool b => .bool b
  | .int n => .int n
  | .float x => .float x
  | .str s => .str s

def ofJson? : Json τ → Option (Scalar τ)
  | .null => some .null
  | .bool b => some (.bool b)
  | .int n => some (.int n)
  | .float x => some (.float x)
  | .str s => some (.str s)
  | .list _ | .object _ => none

def number? (a : Scalar τ) : Option Number := a.toJson.number?

/-- Whether two keys are the same key. -/
def same [BEq τ] (a b : Scalar τ) : Bool := a.toJson.same b.toJson

def typeName (a : Scalar τ) : String := a.toJson.typeName

def literal [Spelled τ] (a : Scalar τ) : String := a.toJson.literal

theorem ofJson?_toJson (a : Scalar τ) : ofJson? a.toJson = some a := by
  cases a <;> rfl

end Scalar

end BlockWorkbench
