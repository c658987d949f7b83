import BlockWorkbench.Number.Shortest

/-!
The text of a float: its shortest digits, positional or with an exponent.
-/

namespace BlockWorkbench.Number

/-- The choices left open by the digits. -/
structure FloatLayout where
  /-- The lowest place of the leading digit that is written positionally. -/
  lowest : Int
  /-- The highest such place. -/
  highest : Int
  /-- The least number of digits of an exponent. -/
  exponentWidth : Nat
  /-- The texts of the values without digits. -/
  nan : String
  infinity : String

/-- Positional from `0.0001` to below `10 ^ 16`, exponents signed and of two digits at least. -/
def scriptFloats : FloatLayout := ⟨-4, 15, 2, "nan", "inf"⟩

/-- As in scripts, with the names that JSON readers know. -/
def jsonFloats : FloatLayout := { scriptFloats with nan := "NaN", infinity := "Infinity" }

def padded (width n : Nat) : List Char :=
  let digits := Nat.toDigits 10 n
  List.replicate (width - digits.length) '0' ++ digits

/-- Digits with the point after `point` of them, filled up with zeros on either side. -/
def positional (digits : List Char) (point : Int) : List Char :=
  if point ≤ 0 then '0' :: '.' :: (List.replicate (-point).toNat '0' ++ digits)
  else
    let whole := digits.take point.toNat
    let rest := digits.drop point.toNat
    whole ++ List.replicate (point.toNat - whole.length) '0' ++ '.'
      :: (if rest.isEmpty then ['0'] else rest)

def scientific (width : Nat) (digits : List Char) (place : Int) : List Char :=
  let fraction := if digits.length ≤ 1 then [] else '.' :: digits.drop 1
  digits.take 1 ++ fraction ++ 'e' :: (if place < 0 then '-' else '+') :: padded width place.natAbs

def FloatLayout.finite (layout : FloatLayout) (x : Binary) : List Char :=
  let body :=
    if x.significand = 0 then "0.0".toList
    else
      let d := x.shortest
      let digits := Nat.toDigits 10 d.digits
      let place := d.exponent + digits.length - 1
      if layout.lowest ≤ place && place ≤ layout.highest then positional digits (place + 1)
      else scientific layout.exponentWidth digits place
  if x.negative then '-' :: body else body

def FloatLayout.render (layout : FloatLayout) (x : Float) : String :=
  match classify x with
  | .nan => layout.nan
  | .infinite false => layout.infinity
  | .infinite true => "-" ++ layout.infinity
  | .finite b => String.ofList (layout.finite b)

end BlockWorkbench.Number
