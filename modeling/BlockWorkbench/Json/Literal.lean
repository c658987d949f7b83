import BlockWorkbench.Json.Basic
import BlockWorkbench.Number.FloatText
import BlockWorkbench.Text.Quoted

/-!
JSON values written as script literals, the form in which messages and logs show them.
-/

namespace BlockWorkbench.Json

variable {τ : Type} [Spelled τ]

/-- Parts with a comma and a space between them. -/
def commaSeparated (parts : List String) : String := ", ".intercalate parts

mutual

def literal : Json τ → String
  | .null => "None"
  | .bool true => "True"
  | .bool false => "False"
  | .int n => toString n
  | .float x => Number.scriptFloats.render x
  | .str s => (Spelled.points s).quoted
  | .list items => "[" ++ commaSeparated (literals items) ++ "]"
  | .object fields => "\x7b" ++ commaSeparated (fieldLiterals fields) ++ "\x7d"

def literals : List (Json τ) → List String
  | [] => []
  | v :: rest => literal v :: literals rest

def fieldLiterals : List (τ × Json τ) → List String
  | [] => []
  | (n, v) :: rest => ((Spelled.points n).quoted ++ ": " ++ literal v) :: fieldLiterals rest

end

/-- Whether a value is nested too deep to be written as a literal. -/
def isTooDeep {τ : Type} (v : Json τ) : Bool := nestingLimit < v.depth

@[simp] theorem isTooDeep_spelled (v : Json τ) : v.spelled.isTooDeep = v.isTooDeep := by
  rw [isTooDeep, isTooDeep, spelled, depth_mapTexts]

/-- What holds no other value is not nested at all. -/
theorem isTruthy_of_isTooDeep {v : Json τ} (h : v.isTooDeep = true) : v.isTruthy = true := by
  cases v with
  | null | bool _ | int _ | float _ | str _ => simp [isTooDeep, depth, nestingLimit] at h
  | list items =>
      cases items with
      | nil => simp [isTooDeep, depth, depthOfItems, nestingLimit] at h
      | cons => rfl
  | object fields =>
      cases fields with
      | nil => simp [isTooDeep, depth, depthOfFields, nestingLimit] at h
      | cons => rfl

/-- A value as plain text: a string as it is, all else as a literal. -/
def plain : Json → String
  | .str s => s
  | v => v.literal

end BlockWorkbench.Json
