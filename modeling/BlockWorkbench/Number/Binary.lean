/-!
Floats as exact numbers. A finite float is a signed multiple of a power of two, and every ratio
of naturals has a nearest float, the even one of two.
-/

namespace BlockWorkbench.Number

-- Powers of integers are those of the core library, whatever else is imported.
attribute [local instance (2000)] instPowNat

/-- A finite float: `significand * 2 ^ exponent`, negated if `negative`. -/
structure Binary where
  negative : Bool
  significand : Nat
  exponent : Int
  deriving DecidableEq, Repr

inductive FloatClass where
  | nan
  | infinite (negative : Bool)
  | finite (value : Binary)
  deriving DecidableEq, Repr

/-- How many floats share a sign and an exponent: 52 bits of a significand vary. -/
def fractions : Nat := 0x10000000000000

def classify (x : Float) : FloatClass :=
  let bits := x.toBits.toNat
  let negative := decide (0x8000000000000000 ≤ bits)
  let field : Nat := bits / fractions % 0x800
  let fraction := bits % fractions
  if field = 2047 then
    if fraction = 0 then .infinite negative else .nan
  else if field = 0 then .finite ⟨negative, fraction, -1074⟩
  else .finite ⟨negative, fractions + fraction, (field : Int) - 1075⟩

/-- The quotient rounded to the nearest natural, a half to the even one. -/
def roundDiv (num den : Nat) : Nat :=
  let q := num / den
  let r := num % den
  if 2 * r < den then q
  else if den < 2 * r then q + 1
  else if q % 2 = 0 then q else q + 1

/-- `num / den` scaled by `2 ^ -exponent`, as a pair of naturals. -/
def scaledBy (num den : Nat) (exponent : Int) : Nat × Nat :=
  if 0 ≤ exponent then (num, den * 2 ^ exponent.toNat) else (num * 2 ^ (-exponent).toNat, den)

/-- The largest `e` with `2 ^ e ≤ num / den`, for positive `num` and `den`. -/
def log2Ratio (num den : Nat) : Int :=
  let guess : Int := (num.log2 : Int) - (den.log2 : Int)
  let (n, d) := scaledBy num den guess
  if n < d then guess - 1 else guess

/-- The bits of the float nearest to `num / den`, or `none` if it is too large for a finite
one. -/
def nearestBits? (num den : Nat) : Option Nat :=
  if num = 0 ∨ den = 0 then some 0
  else
    let unit := max (log2Ratio num den - 52) (-1074)
    let (n, d) := scaledBy num den unit
    let q := roundDiv n d
    let (q, unit) := if q = 2 * fractions then (fractions, unit + 1) else (q, unit)
    if q < fractions then some q
    else
      let field := (unit + 1075).toNat
      if 2047 ≤ field then none else some (field * fractions + (q - fractions))

def infinity : Float := Float.ofBits 0x7ff0000000000000

def notANumber : Float := Float.ofBits 0x7ff8000000000000

def signed (negative : Bool) (x : Float) : Float := if negative then -x else x

/-- The float nearest to `num / den`, unless it is too large. -/
def nearest? (negative : Bool) (num den : Nat) : Option Float :=
  (nearestBits? num den).map fun bits => signed negative (Float.ofBits bits.toUInt64)

/-- The float nearest to an integer, unless it is too large. -/
def ofInt? (n : Int) : Option Float := nearest? (decide (n < 0)) n.natAbs 1

/-- The float nearest to `digits * 10 ^ exponent`; infinite beyond the largest. -/
def ofDecimal (negative : Bool) (digits : Nat) (exponent : Int) : Float :=
  let (num, den) :=
    if 0 ≤ exponent then (digits * 10 ^ exponent.toNat, 1) else (digits, 10 ^ (-exponent).toNat)
  (nearest? negative num den).getD (signed negative infinity)

/-- A finite float as the integer nearest to it in the direction of zero. -/
def Binary.truncate (x : Binary) : Int :=
  let size := if 0 ≤ x.exponent then x.significand * 2 ^ x.exponent.toNat
    else x.significand / 2 ^ (-x.exponent).toNat
  if x.negative then -(size : Int) else size

/-- The integer `x * 2 ^ shift`, for a shift that leaves no fraction. -/
def Binary.shifted (x : Binary) (shift : Int) : Int :=
  let size := x.significand * 2 ^ (x.exponent + shift).toNat
  if x.negative then -(size : Int) else size

/-- The order of two finite floats: both are brought to the smaller of their units. -/
def Binary.compare (x y : Binary) : Ordering :=
  let unit := min x.exponent y.exponent
  Ord.compare (x.shifted (-unit)) (y.shifted (-unit))

end BlockWorkbench.Number
