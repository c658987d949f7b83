import BlockWorkbench.Script.Conversion
import BlockWorkbench.Script.Sequence

/-!
Texts as templates. A mark `%s`, `%r`, `%d` or `%i` is filled with the next value, as plain text,
as a literal or as an integer; `%%` stands for the sign itself.
-/

namespace BlockWorkbench.Script.Template

/-- The values for a template: the items of a tuple, or a value by itself. -/
def values : Value → List Value
  | .tuple items => items
  | v => [v]

/-- Whether a value may be left over: tuples and texts may not, other containers may. -/
def isSpare : Value → Bool
  | .list _ | .dict _ | .range .. => true
  | _ => false

/-- A number as an integer, fractions cut off. -/
def wholeNumber (s : Store) (mark : CodePoint) (v : Value) : Except RuntimeFault Points :=
  match v with
  | .bool _ | .int _ | .float _ => do return .ofString (← integerText (← s.toInt v))
  | v => .error (.notANumber mark (s.typeName v))

/-- The text that a mark at place `index` gives for a value. -/
def fillMark (s : Store) (index : Nat) (mark : CodePoint) (v : Value) :
    Except RuntimeFault Points :=
  if mark.is 's' then s.plain v
  else if mark.is 'r' then (s.literal v).map .ofString
  else if mark.is 'd' || mark.is 'i' then wholeNumber s mark v
  else .error (.badMark mark index)

/-- A template from place `index` on, filled with values; those left over are given back. -/
def fillFrom (s : Store) (index : Nat) :
    Points → List Value → Except RuntimeFault (Points × List Value)
  | [], left => .ok ([], left)
  | [p], left => if p.is '%' then .error .unfinishedMark else .ok ([p], left)
  | p :: mark :: rest, left =>
    if !p.is '%' then do
      let (text, left) ← fillFrom s (index + 1) (mark :: rest) left
      return (p :: text, left)
    else if mark.is '%' then do
      let (text, left) ← fillFrom s (index + 2) rest left
      return (mark :: text, left)
    else
      match left with
      | [] => .error .tooFewForTemplate
      | v :: left => do
        let filled ← fillMark s (index + 1) mark v
        let (text, left) ← fillFrom s (index + 2) rest left
        return (filled ++ text, left)

/-- A template filled with a value. -/
def fill (s : Store) (template : Points) (v : Value) : Except RuntimeFault Points := do
  let (text, left) ← fillFrom s 0 template (values v)
  if left.isEmpty || isSpare v then return text
  else throw .tooManyForTemplate

end BlockWorkbench.Script.Template
