import BlockWorkbench.Text.Printable
import BlockWorkbench.Text.Hex

/-!
Text in quotes, as a script would write it. The quote is single unless only the double one
leaves the text free of escapes for it.
-/

namespace BlockWorkbench.Text

def quoteMark (cs : List Char) : Char :=
  if cs.contains '\'' && !cs.contains '"' then '"' else '\''

/-- A character that is not printable, by its number in the shortest of three widths. -/
def numberedChar (c : Char) : List Char :=
  if c.toNat < 0x100 then '\\' :: 'x' :: hexDigits 2 c.toNat
  else if c.toNat < 0x10000 then '\\' :: 'u' :: hexDigits 4 c.toNat
  else '\\' :: 'U' :: hexDigits 8 c.toNat

/-- One character between quotes `mark`. -/
def quoteChar (mark c : Char) : List Char :=
  if c = mark ∨ c = '\\' then ['\\', c]
  else if c = '\n' then ['\\', 'n']
  else if c = '\r' then ['\\', 'r']
  else if c = '\t' then ['\\', 't']
  else if isPrintable c then [c]
  else numberedChar c

def quoteChars (cs : List Char) : List Char :=
  quoteMark cs :: cs.flatMap (quoteChar (quoteMark cs)) ++ [quoteMark cs]

def quoted (s : String) : String := String.ofList (quoteChars s.toList)

end BlockWorkbench.Text
