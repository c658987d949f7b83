import BlockWorkbench.Json.Scalar
import BlockWorkbench.Json.Writer

/-!
What a value says when it is sent: like JSON, but the keys of a dictionary may be any scalar.
JSON text writes all keys as strings.
-/

namespace BlockWorkbench

/-- A scalar as the name of a field. -/
def Scalar.fieldName : Scalar Points → Points
  | .null => "null"
  | .bool b => .ofString (if b then "true" else "false")
  | .int n => .ofString (toString n)
  | .float x => .ofString (Number.jsonFloats.render x)
  | .str s => s

inductive Document where
  | null
  | bool (b : Bool)
  | int (n : Int)
  | float (x : Float)
  | str (s : Points)
  | list (items : List Document)
  | dict (entries : List (Scalar Points × Document))
  deriving Repr, Inhabited

namespace Document

mutual

/-- A document as JSON, every key a string. -/
def toJson : Document → Json Points
  | .null => .null
  | .bool b => .bool b
  | .int n => .int n
  | .float x => .float x
  | .str s => .str s
  | .list items => .list (toJsonItems items)
  | .dict entries => .object (toJsonFields entries)

def toJsonItems : List Document → List (Json Points)
  | [] => []
  | d :: rest => toJson d :: toJsonItems rest

def toJsonFields : List (Scalar Points × Document) → List (Points × Json Points)
  | [] => []
  | (key, d) :: rest => (key.fieldName, toJson d) :: toJsonFields rest

end

variable {τ : Type} [Spelled τ]

mutual

def ofJson : Json τ → Document
  | .null => .null
  | .bool b => .bool b
  | .int n => .int n
  | .float x => .float x
  | .str s => .str (Spelled.points s)
  | .list items => .list (ofJsonItems items)
  | .object fields => .dict (ofJsonFields fields)

def ofJsonItems : List (Json τ) → List Document
  | [] => []
  | v :: rest => ofJson v :: ofJsonItems rest

def ofJsonFields : List (τ × Json τ) → List (Scalar Points × Document)
  | [] => []
  | (n, v) :: rest => (.str (Spelled.points n), ofJson v) :: ofJsonFields rest

end

/-- An object with the fields given. -/
def fields (entries : List (String × Document)) : Document :=
  .dict (entries.map fun (n, d) => (.str (.ofString n), d))

end Document

end BlockWorkbench
