import BlockWorkbench.Json.Literal
import BlockWorkbench.Number.FloatText
import BlockWorkbench.Number.Numeral
import BlockWorkbench.Script.RuntimeFault

/-!
The text of values: as literals, in which form results are shown, and plain, as `str` gives it.
Lists and dictionaries that contain themselves are cut where they would repeat.
-/

namespace BlockWorkbench.Script

-- Powers of integers are those of the core library, whatever else is imported.
attribute [local instance (2000)] instPowNat

/-- An integer in decimal digits, unless there are too many. -/
def integerText (n : Int) : Except RuntimeFault String :=
  if 10 ^ Number.digitLimit ≤ n.natAbs then .error .integerTooLongToWrite else .ok (toString n)

/-- A run of integers as the call that makes it. -/
def rangeText (start stop step : Int) : Except RuntimeFault String := do
  let ends := (← integerText start) ++ ", " ++ (← integerText stop)
  if step = 1 then return "range(" ++ ends ++ ")"
  else return "range(" ++ ends ++ ", " ++ (← integerText step) ++ ")"

def Builtin.literal (b : Builtin) : String :=
  if b.isType then "<class " ++ Text.quoted b.name ++ ">"
  else if b.isEngine then "<bound method " ++ b.name ++ ">"
  else "<built-in function " ++ b.name ++ ">"

namespace Store

/-- Literals made one after another. -/
def eachText {α : Type} (text : α → Except RuntimeFault String) :
    List α → Except RuntimeFault (List String)
  | [] => .ok []
  | v :: rest => do return (← text v) :: (← eachText text rest)

/-- A value as a literal, inside the lists `lists` and the dictionaries `dicts`. -/
def literalWithin (s : Store) :
    Nat → List Address → List Address → Value → Except RuntimeFault String
  | 0, _, _, _ => .error .tooDeep
  | depth + 1, lists, dicts, v =>
    match v with
    | .none => .ok "None"
    | .bool true => .ok "True"
    | .bool false => .ok "False"
    | .int n => integerText n
    | .float x => .ok (Number.scriptFloats.render x)
    | .str t => .ok t.quoted
    | .tuple [v] => do return "(" ++ (← literalWithin s depth lists dicts v) ++ ",)"
    | .tuple items => do
      return "(" ++ Json.commaSeparated (← eachText (literalWithin s depth lists dicts) items)
        ++ ")"
    | .range start stop step => rangeText start stop step
    | .list a =>
      if lists.contains a then .ok "[...]"
      else do
        let texts ← eachText (literalWithin s depth (a :: lists) dicts) (s.items a).toList
        return "[" ++ Json.commaSeparated texts ++ "]"
    | .dict a =>
      if dicts.contains a then .ok "\x7b...\x7d"
      else do
        let text := literalWithin s depth lists (a :: dicts)
        let texts ← eachText (fun (k, v) => do return (← text k) ++ ": " ++ (← text v))
          (s.entries a)
        return "\x7b" ++ Json.commaSeparated texts ++ "\x7d"
    | .function a => .ok ("<function " ++ (s.function a).path ++ ">")
    | .builtin b => .ok b.literal
    | .errorClass kind => .ok ("<class " ++ Text.quoted kind.text ++ ">")
    | .error a => do
      let e := s.error a
      let texts ← eachText (literalWithin s depth lists dicts) e.args
      return e.kind.text ++ "(" ++ Json.commaSeparated texts ++ ")"
    | .method m v => .ok ("<built-in method " ++ m.name ++ " of " ++ s.typeName v ++ " object>")

def literal (s : Store) (v : Value) : Except RuntimeFault String :=
  s.literalWithin nestingLimit [] [] v

/-- The text of an error without its kind, where `plain` writes an argument. -/
def errorText (s : Store) (plain : Value → Except RuntimeFault Points) (e : ErrorObject) :
    Except RuntimeFault Points :=
  match e.detail?, e.args with
  | some d, _ => do
    let head := .ofString "[Errno " ++ (← plain d.number) ++ .ofString "] " ++ (← plain d.text)
    match d.file?, d.target? with
    | some f, some t =>
      return head ++ .ofString (": " ++ (← s.literal f) ++ " -> " ++ (← s.literal t))
    | some f, none => return head ++ .ofString (": " ++ (← s.literal f))
    | none, _ => return head
  | none, [] => .ok []
  | none, [v] => if e.kind = .key then (s.literal v).map .ofString else plain v
  | none, args => (s.literal (.tuple args)).map .ofString

/-- A value as plain text: a string as it is, an error as its text, all else as a literal. -/
def plainWithin (s : Store) : Nat → Value → Except RuntimeFault Points
  | 0, _ => .error .tooDeep
  | depth + 1, v =>
    match v with
    | .str t => .ok t
    | .error a => s.errorText (plainWithin s depth) (s.error a)
    | v => (s.literal v).map .ofString

def plain (s : Store) (v : Value) : Except RuntimeFault Points := s.plainWithin nestingLimit v

/-- An error in one line: its kind and its text. -/
def describe (s : Store) (e : ErrorObject) : Except RuntimeFault Points := do
  return e.kind.text ++ ": " ++ (← s.errorText s.plain e)

end Store

end BlockWorkbench.Script
