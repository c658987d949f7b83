import BlockWorkbench.Number.Numeral
import BlockWorkbench.Text.Hex
import BlockWorkbench.Script.Token

/-!
Numbers as scripts write them: decimal, hexadecimal, octal and binary integers, and floats, with
single underscores between digits.
-/

namespace BlockWorkbench.Script

/-- Digits below a base, with single underscores between them or in front. -/
def basedNumber? (base : Nat) (cs : List Char) : Option Nat :=
  let rec go : List Char → Bool → Nat → Option Nat
    | [], seen, n => if seen then some n else none
    | '_' :: c :: rest, _, n =>
      match Text.hexValue? c with
      | some d => if d < base then go rest true (n * base + d) else none
      | none => none
    | c :: rest, _, n =>
      match Text.hexValue? c with
      | some d => if d < base then go rest true (n * base + d) else none
      | none => none
  go cs false 0

/-- A decimal integer; a zero in front is allowed only among zeros. -/
def decimalNumber? (cs : List Char) : Option Nat :=
  match Number.digitGroups? cs with
  | some digits =>
    if Number.digitLimit < digits.length then none
    else if digits.head? = some '0' && digits.any (· != '0') then none
    else some (Number.digitsValue digits)
  | none => none

/-- A float: digits with a point, an exponent, or both. -/
def floatNumber? (cs : List Char) : Option Float :=
  if cs.any fun c => c == '.' || c == 'e' || c == 'E' then Number.readDecimal? false cs else none

/-- The token of a run of characters that starts like a number. -/
def numeral? (cs : List Char) : Option Token :=
  match cs with
  | '0' :: x :: rest =>
    if x == 'x' || x == 'X' then (basedNumber? 16 rest).map .int
    else if x == 'o' || x == 'O' then (basedNumber? 8 rest).map .int
    else if x == 'b' || x == 'B' then (basedNumber? 2 rest).map .int
    else ((decimalNumber? cs).map .int).or ((floatNumber? cs).map .float)
  | _ => ((decimalNumber? cs).map Token.int).or ((floatNumber? cs).map .float)

/-- Keywords that may follow a number without a blank. -/
def trailingKeywords : List (List Char) :=
  ["and", "else", "for", "if", "in", "is", "or", "not"].map String.toList

/-- The tokens of a run: a number, or a number and a keyword right behind it. -/
def numeralTokens? (cs : List Char) : Option (List Token) :=
  match numeral? cs with
  | some t => some [t]
  | none =>
    trailingKeywords.findSome? fun word =>
      if word.isSuffixOf cs then
        (numeral? (cs.take (cs.length - word.length))).map fun t =>
          [t, .keyword (String.ofList word)]
      else none

end BlockWorkbench.Script
