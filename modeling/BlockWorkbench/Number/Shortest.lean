import BlockWorkbench.Number.Binary

/-!
The fewest decimal digits that read back as a given float, and among those the nearest. A
decimal reads back when it lies in the interval of numbers that round to the float; the interval
holds its ends if the significand is even.
-/

namespace BlockWorkbench.Number

-- Powers of integers are those of the core library, whatever else is imported.
attribute [local instance (2000)] instPowNat

/-- The numbers that round to `significand * 2 ^ exponent`, all in units of
`2 ^ (exponent - 2)`. -/
structure Interval where
  low : Nat
  value : Nat
  high : Nat
  closed : Bool
  deriving Repr

/-- Below a power of two the floats lie twice as dense. -/
def Binary.interval (x : Binary) : Interval where
  low := if x.significand = fractions ∧ -1074 < x.exponent then 4 * x.significand - 1
    else 4 * x.significand - 2
  value := 4 * x.significand
  high := 4 * x.significand + 2
  closed := x.significand % 2 = 0

/-- Whether `num / den`, in the interval's units, rounds to its float. -/
def Interval.holds (i : Interval) (num den : Nat) : Bool :=
  if i.closed then i.low * den ≤ num && num ≤ i.high * den
  else i.low * den < num && num < i.high * den

/-- The value `digits * 10 ^ exponent`. -/
structure Decimal where
  digits : Nat
  exponent : Int
  deriving DecidableEq, Repr

/-- `10 ^ place` in units of `2 ^ unit`, as a ratio. -/
def gridStep (place unit : Int) : Nat × Nat :=
  let ten := if 0 ≤ place then (10 ^ place.toNat, 1) else (1, 10 ^ (-place).toNat)
  scaledBy ten.1 ten.2 unit

/-- Of the two neighbours of the value on the grid of `10 ^ place`, the nearer one that reads
back; of two equally near ones the even. -/
def Interval.onGrid? (i : Interval) (unit place : Int) : Option Decimal :=
  let (num, den) := gridStep place unit
  let below := i.value * den / num
  let above := below + 1
  let holdsBelow := 0 < below && i.holds (below * num) den
  let holdsAbove := i.holds (above * num) den
  let twice := below * num + above * num
  if holdsBelow && holdsAbove then
    if 2 * i.value * den < twice then some ⟨below, place⟩
    else if twice < 2 * i.value * den then some ⟨above, place⟩
    else some ⟨if below % 2 = 0 then below else above, place⟩
  else if holdsBelow then some ⟨below, place⟩
  else if holdsAbove then some ⟨above, place⟩
  else none

/-- The place of the leading digit of a positive `num / den`. -/
def leadingPlace (num den : Nat) : Int :=
  if den ≤ num then ((Nat.toDigits 10 (num / den)).length : Int) - 1
  else -((Nat.toDigits 10 (den / num)).length : Int)

/-- Drops the zeros at the end of the digits. -/
def Decimal.trimmed : Nat → Decimal → Decimal
  | 0, d => d
  | fuel + 1, d =>
    if d.digits % 10 = 0 ∧ d.digits ≠ 0 then Decimal.trimmed fuel ⟨d.digits / 10, d.exponent + 1⟩
    else d

/-- The shortest decimal of a positive float: the coarsest of seventeen grids that has one. -/
def Binary.shortest (x : Binary) : Decimal :=
  let unit := x.exponent - 2
  let (num, den) := scaledBy x.significand 1 (-x.exponent)
  let place := leadingPlace num den
  let found := (List.range 17).findSome? fun n : Nat => x.interval.onGrid? unit (place - n)
  (found.getD ⟨0, 0⟩).trimmed 20

end BlockWorkbench.Number
