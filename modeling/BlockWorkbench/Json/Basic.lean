import BlockWorkbench.Number.Basic
import BlockWorkbench.Text.Points

/-!
JSON values. An object keeps its fields in the order they were first written, one for each name.
The texts in a value are strings, unless they come from records or scripts: those are rows of code
points.
-/

namespace BlockWorkbench

/-- How deep values may be nested to be written as literals or compared. -/
def nestingLimit : Nat := 980

/-- JSON values with texts of type `τ`. -/
inductive Json (τ : Type := String) where
  | null
  | bool (b : Bool)
  | int (n : Int)
  | float (x : Float)
  | str (s : τ)
  | list (items : List (Json τ))
  | object (fields : List (τ × Json τ))
  deriving Repr, Inhabited

namespace Json

variable {τ σ : Type}

/-- The number that a value stands for; truth values count as 0 and 1. -/
def number? : Json τ → Option Number
  | .bool b => some (.int (if b then 1 else 0))
  | .int n => some (.int n)
  | .float x => some (.float x)
  | _ => none

/-- The name of the type of a value in scripts. -/
def typeName : Json τ → String
  | .null => "NoneType"
  | .bool _ => "bool"
  | .int _ => "int"
  | .float _ => "float"
  | .str _ => "str"
  | .list _ => "list"
  | .object _ => "dict"

/-- Everything but null, false, zero and what is empty. -/
def isTruthy [Spelled τ] : Json τ → Bool
  | .null => false
  | .bool b => b
  | .int n => n != 0
  | .float x => x != 0.0
  | .str s => !(Spelled.points s).isEmpty
  | .list items => !items.isEmpty
  | .object fields => !fields.isEmpty

/-- The field called `name`. -/
def field? [BEq τ] (fields : List (τ × Json τ)) (name : τ) : Option (Json τ) :=
  (fields.find? (·.1 == name)).map (·.2)

/-- Sets a field: in place if the name is present, at the end if not. -/
def setField [DecidableEq τ] : List (τ × Json τ) → τ → Json τ → List (τ × Json τ)
  | [], name, value => [(name, value)]
  | (n, v) :: rest, name, value =>
    if n = name then (n, value) :: rest else (n, v) :: setField rest name value

/-- The fields without the one called `name`. -/
def dropField (fields : List (String × Json)) (name : String) : List (String × Json) :=
  fields.filter (·.1 != name)

/-- The fields of `later` laid over those of `base`. -/
def mergeFields (base later : List (String × Json)) : List (String × Json) :=
  later.foldl (fun acc f => setField acc f.1 f.2) base

mutual

/-- Equality of meaning: numbers by value, truth values as numbers, objects in any order. -/
def same [BEq τ] : Json τ → Json τ → Bool
  | .null, .null => true
  | .str a, .str b => a == b
  | .list a, .list b => sameItems a b
  | .object a, .object b => a.length == b.length && sameFields a b
  | a, b =>
    match a.number?, b.number? with
    | some m, some n => m.same n
    | _, _ => false

def sameItems [BEq τ] : List (Json τ) → List (Json τ) → Bool
  | [], [] => true
  | a :: as, b :: bs => same a b && sameItems as bs
  | _, _ => false

/-- Whether every field has an equal one of the same name in `other`. -/
def sameFields [BEq τ] : List (τ × Json τ) → List (τ × Json τ) → Bool
  | [], _ => true
  | (n, v) :: rest, other =>
    (match field? other n with
      | some w => same v w
      | none => false) && sameFields rest other

end

mutual

/-- How many levels deep a value is nested; a value that holds no other counts one. -/
def depth : Json τ → Nat
  | .list items => depthOfItems items + 1
  | .object fields => depthOfFields fields + 1
  | _ => 1

def depthOfItems : List (Json τ) → Nat
  | [] => 0
  | v :: rest => max (depth v) (depthOfItems rest)

def depthOfFields : List (τ × Json τ) → Nat
  | [] => 0
  | (_, v) :: rest => max (depth v) (depthOfFields rest)

end

mutual

/-- A value with all its texts replaced. -/
def mapTexts (f : τ → σ) : Json τ → Json σ
  | .null => .null
  | .bool b => .bool b
  | .int n => .int n
  | .float x => .float x
  | .str s => .str (f s)
  | .list items => .list (mapItems f items)
  | .object fields => .object (mapFields f fields)

def mapItems (f : τ → σ) : List (Json τ) → List (Json σ)
  | [] => []
  | v :: rest => mapTexts f v :: mapItems f rest

def mapFields (f : τ → σ) : List (τ × Json τ) → List (σ × Json σ)
  | [] => []
  | (n, v) :: rest => (f n, mapTexts f v) :: mapFields f rest

end

mutual

/-- The depth of a value does not lie in its texts. -/
theorem depth_mapTexts (f : τ → σ) (v : Json τ) : (v.mapTexts f).depth = v.depth := by
  match v with
  | .null | .bool _ | .int _ | .float _ | .str _ => rfl
  | .list items => rw [mapTexts, depth, depth, depth_mapItems]
  | .object fields => rw [mapTexts, depth, depth, depth_mapFields]

theorem depth_mapItems (f : τ → σ) (vs : List (Json τ)) :
    depthOfItems (mapItems f vs) = depthOfItems vs := by
  match vs with
  | [] => rfl
  | v :: rest => rw [mapItems, depthOfItems, depthOfItems, depth_mapTexts, depth_mapItems]

theorem depth_mapFields (f : τ → σ) (fields : List (τ × Json τ)) :
    depthOfFields (mapFields f fields) = depthOfFields fields := by
  match fields with
  | [] => rfl
  | (_, v) :: rest => rw [mapFields, depthOfFields, depthOfFields, depth_mapTexts, depth_mapFields]

end

/-- A value with its texts made strings. Halves of pairs are replaced. -/
def shown : Json Points → Json := mapTexts Points.toString

/-- A value with its texts spelled out. -/
def spelled [Spelled τ] : Json τ → Json Points := mapTexts Spelled.points

end Json

end BlockWorkbench
