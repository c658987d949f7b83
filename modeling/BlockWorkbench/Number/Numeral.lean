import BlockWorkbench.Number.Binary
import BlockWorkbench.Text.Blank
import BlockWorkbench.Text.DecimalDigit

/-!
Numbers read from text. Digits of every script count, single underscores may stand between
digits, and blanks around the number are ignored.
-/

namespace BlockWorkbench.Number

/-- Integers with more digits than this are neither read nor written. -/
def digitLimit : Nat := 4300

/-- Why an integer text of so many digits is refused. -/
def tooLongMessage (digits : Nat) : String :=
  s!"Exceeds the limit ({digitLimit} digits) for integer string conversion: value has {digits} "
    ++ "digits; use sys.set_int_max_str_digits() to increase the limit"

/-- Why an integer is not written. -/
def tooLongToWriteMessage : String :=
  s!"Exceeds the limit ({digitLimit} digits) for integer string conversion; "
    ++ "use sys.set_int_max_str_digits() to increase the limit"

/-- Blanks that may stand around a number: the information separators are not among them. -/
def isNumeralBlank (c : Char) : Bool :=
  Text.isBlank c && !(0x1c ≤ c.toNat && c.toNat ≤ 0x1f)

def trimNumeral (cs : List Char) : List Char :=
  ((cs.dropWhile isNumeralBlank).reverse.dropWhile isNumeralBlank).reverse

/-- Digits of other scripts as ASCII digits; all else is kept. -/
def plainDigit (c : Char) : Char := ((Text.digitValue? c).map Nat.digitChar).getD c

def isDigit (c : Char) : Bool := '0' ≤ c && c ≤ '9'

def digitsValue (cs : List Char) : Nat :=
  cs.foldl (fun n c => n * 10 + (c.toNat - '0'.toNat)) 0

/-- Digits with single underscores between them: the digits alone, or `none` if an underscore
stands elsewhere or there is no digit. -/
def digitGroups? : List Char → Option (List Char)
  | [] => none
  | [c] => if isDigit c then some [c] else none
  | c :: '_' :: rest => if isDigit c then (digitGroups? rest).map (c :: ·) else none
  | c :: d :: rest => if isDigit c then (digitGroups? (d :: rest)).map (c :: ·) else none

inductive IntReading where
  | value (n : Int)
  | malformed
  | tooLong (digits : Nat)
  deriving DecidableEq, Repr

/-- The sign in front of a number, and what follows it. -/
def splitSign : List Char → Bool × List Char
  | '-' :: rest => (true, rest)
  | '+' :: rest => (false, rest)
  | cs => (false, cs)

/-- An integer. The digits are counted before anything behind them is looked at. -/
def readInt (s : String) : IntReading :=
  let (negative, body) := splitSign ((trimNumeral s.toList).map plainDigit)
  let run := body.takeWhile fun c => isDigit c || c == '_'
  match digitGroups? run with
  | none => .malformed
  | some digits =>
    if digitLimit < digits.length then .tooLong digits.length
    else if run.length < body.length then .malformed
    else .value (if negative then -(digitsValue digits : Int) else digitsValue digits)

/-- The text before a mark and, if the mark occurs, the text behind it. -/
def splitMark (isMark : Char → Bool) (cs : List Char) : List Char × Option (List Char) :=
  match cs.dropWhile (!isMark ·) with
  | [] => (cs, none)
  | _ :: rest => (cs.takeWhile (!isMark ·), some rest)

/-- Digits of a part that may be empty. -/
def optionalDigits? : List Char → Option (List Char)
  | [] => some []
  | cs => digitGroups? cs

/-- The largest exponent that is computed with; floats end long before it. -/
def exponentBound : Int := 100000

/-- `whole.fraction * 10 ^ exponent` as a float, cut off where all further digits are lost. -/
def assemble (negative : Bool) (whole fraction : List Char) (exponent : Int) : Float :=
  let digits := digitsValue (whole ++ fraction)
  if digits = 0 then signed negative 0.0
  else if exponentBound < exponent then signed negative infinity
  else if exponent < -exponentBound then signed negative 0.0
  else ofDecimal negative digits (exponent - fraction.length)

def readExponent? (cs : List Char) : Option Int :=
  let (negative, digits) := splitSign cs
  (digitGroups? digits).map fun ds =>
    if negative then -(digitsValue ds : Int) else digitsValue ds

/-- A decimal number with an optional point and exponent. -/
def readDecimal? (negative : Bool) (cs : List Char) : Option Float :=
  let (mantissa, exponent) := splitMark (fun c => c == 'e' || c == 'E') cs
  let (whole, fraction) := splitMark (· == '.') mantissa
  match optionalDigits? whole, optionalDigits? (fraction.getD []),
      exponent.elim (some 0) readExponent? with
  | some w, some f, some e =>
    if w.isEmpty && f.isEmpty then none else some (assemble negative w f e)
  | _, _, _ => none

/-- A float, by digits or by name. -/
def readFloat? (s : String) : Option Float :=
  let (negative, body) := splitSign ((trimNumeral s.toList).map plainDigit)
  let name := String.ofList (body.map Char.toLower)
  if name = "inf" || name = "infinity" then some (signed negative infinity)
  else if name = "nan" then some notANumber
  else readDecimal? negative body

end BlockWorkbench.Number
