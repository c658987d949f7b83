import BlockWorkbench.Text.Quoted
import BlockWorkbench.Text.UpperCase

/-!
Texts as scripts and data hold them: rows of code points. Besides characters a text may hold halves
of surrogate pairs, which escapes make. A half stands for no character by itself; two that match
and stand side by side are shown as one character and yet remain two code points.
-/

namespace BlockWorkbench

def isHighUnit (n : Nat) : Bool := 0xd800 ≤ n && n < 0xdc00

def isLowUnit (n : Nat) : Bool := 0xdc00 ≤ n && n < 0xe000

/-- The characters of a row of code points, in which two units of a pair make one character.
A unit without its other half is replaced. -/
def joinUnits : List Nat → List Char
  | [] => []
  | [n] => [if isHighUnit n || isLowUnit n then '\ufffd' else Char.ofNat n]
  | n :: m :: rest =>
    if isHighUnit n && isLowUnit m then
      Char.ofNat (0x10000 + (n - 0xd800) * 0x400 + (m - 0xdc00)) :: joinUnits rest
    else
      (if isHighUnit n || isLowUnit n then '\ufffd' else Char.ofNat n) :: joinUnits (m :: rest)

/-- A character, or half of a surrogate pair. -/
abbrev CodePoint := Fin 0x110000

namespace CodePoint

def ofChar (c : Char) : CodePoint :=
  ⟨c.toNat, by have := c.valid; simp only [UInt32.isValidChar, Nat.isValidChar] at this
               simp only [Char.toNat]; omega⟩

/-- The character that a code point is, unless it is half of a pair. -/
def char? (p : CodePoint) : Option Char :=
  if p.val.isValidChar then some (Char.ofNat p.val) else none

def ofNat (n : Nat) : CodePoint := Fin.ofNat 0x110000 n

/-- Whether a code point is half of a pair. -/
def isHalf (p : CodePoint) : Bool := p.char?.isNone

/-- Whether a code point is the character `c`. -/
def is (p : CodePoint) (c : Char) : Bool := p.val == c.toNat

/-- One code point between quotes `mark`. -/
def quoted (mark : Char) (p : CodePoint) : List Char :=
  match p.char? with
  | some c => Text.quoteChar mark c
  | none => '\\' :: 'u' :: Text.hexDigits 4 p.val

end CodePoint

abbrev Points := List CodePoint

namespace Points

def ofString (s : String) : Points := s.toList.map CodePoint.ofChar

instance : Coe String Points := ⟨ofString⟩

/-- The code points that units stand for: one for the two units of a pair, and one for each other
unit. -/
def ofUnits : List Nat → Points
  | [] => []
  | [n] => [.ofNat n]
  | n :: m :: rest =>
    if isHighUnit n && isLowUnit m then
      .ofNat (0x10000 + (n - 0xd800) * 0x400 + (m - 0xdc00)) :: ofUnits rest
    else .ofNat n :: ofUnits (m :: rest)

/-- The string that code points are, if there is no half among them. -/
def string? (t : Points) : Option String := (t.mapM CodePoint.char?).map String.ofList

/-- Where the first halves stand: behind how many code points, and how many in a row. -/
def firstHalves (t : Points) : Nat × Nat :=
  let before := t.takeWhile fun p => !p.isHalf
  (before.length, ((t.drop before.length).takeWhile CodePoint.isHalf).length)

/-- The text as it is shown: pairs made one character, halves without match replaced. -/
def toString (t : Points) : String := String.ofList (joinUnits (t.map Fin.val))

/-- The text with every half replaced. -/
def plain (t : Points) : String := String.ofList (t.map fun p => p.char?.getD '\ufffd')

/-- The text in quotes. Halves of pairs are written by their numbers. -/
def quoted (t : Points) : String :=
  let mark := Text.quoteMark (t.filterMap CodePoint.char?)
  String.ofList (mark :: t.flatMap (CodePoint.quoted mark) ++ [mark])

/-- The order of texts by their code points. -/
def atMost : Points → Points → Bool
  | [], _ => true
  | _ :: _, [] => false
  | a :: as, b :: bs => a.val < b.val || (a == b && atMost as bs)

def upper (t : Points) : Points := t.flatMap fun p =>
  match p.char? with
  | some c => (Text.upperChar c).map .ofChar
  | none => [p]

end Points

/-- The types of texts: strings, which have no halves, and rows of code points. -/
class Spelled (τ : Type) where
  /-- How a text is spelled. -/
  points : τ → Points
  /-- The text that is read from units. -/
  ofUnits : List Nat → τ

instance : Spelled String where
  points := Points.ofString
  ofUnits ns := String.ofList (joinUnits ns)

instance : Spelled Points where
  points := id
  ofUnits := Points.ofUnits

end BlockWorkbench
