import BlockWorkbench.Script.RuntimeFault
import BlockWorkbench.Script.Program

/-!
Arithmetic. Integers are exact; where one operand is a float, the other becomes one first.
Division and remainder round towards the floor, so a remainder has the sign of the divisor.
-/

namespace BlockWorkbench.Script

-- Powers of integers are those of the core library, whatever else is imported.
attribute [local instance (2000)] instPowNat

open Number (Binary classify nearest? scaledBy)

/-- A number as a float. -/
def asFloat : Number → Except RuntimeFault Float
  | .int n =>
    match Number.ofInt? n with
    | some x => .ok x
    | none => .error .integerTooLargeForFloat
  | .float x => .ok x

/-- What is left of `x` when multiples of `y` are taken off towards zero: exact, with the sign
of `x`. -/
def Number.truncatedRemainder (x y : Binary) : Float :=
  let unit := min x.exponent y.exponent
  let a := x.significand * 2 ^ (x.exponent - unit).toNat
  let b := y.significand * 2 ^ (y.exponent - unit).toNat
  let (num, den) := scaledBy (a % b) 1 (-unit)
  (nearest? x.negative num den).getD 0.0

def floatRemainder (x y : Float) : Float :=
  match classify x, classify y with
  | .finite a, .finite b => Number.truncatedRemainder a b
  | .finite _, .infinite _ => x
  | _, _ => Number.notANumber

def copySign (x y : Float) : Float :=
  if y < 0.0 || (y == 0.0 && 1.0 / y < 0.0) then -x else x

/-- The floor of the quotient, and the remainder with the sign of the divisor. -/
def floatFloorDiv (x y : Float) : Float × Float :=
  let r := floatRemainder x y
  let quotient := (x - r) / y
  let shifted := r != 0.0 && (decide (y < 0.0) != decide (r < 0.0))
  let rest := if r == 0.0 then copySign 0.0 y else if shifted then r + y else r
  let quotient := if shifted then quotient - 1.0 else quotient
  if quotient == 0.0 then (copySign 0.0 (x / y), rest)
  else
    let whole := quotient.floor
    (if quotient - whole > 0.5 then whole + 1.0 else whole, rest)

def isFinite (x : Float) : Bool :=
  match classify x with
  | .finite _ => true
  | _ => false

def floatPower (x y : Float) : Except RuntimeFault Float :=
  if isFinite x && isFinite y then
    if x == 0.0 && y < 0.0 then .error .zeroToNegativePower
    else if x < 0.0 && y.floor != y then .error .complexPower
    else
      let z := x.pow y
      if isFinite z then .ok z else .error .resultOutOfRange
  else .ok (x.pow y)

/-- The quotient of two integers, rounded once. -/
def divideIntegers (a b : Int) : Except RuntimeFault Float :=
  if b = 0 then .error .divisionByZero
  else
    match nearest? (decide (a < 0) != decide (b < 0)) a.natAbs b.natAbs with
    | some x => .ok x
    | none => .error .quotientTooLarge

def integerOperation (op : BinaryOp) (a b : Int) : Except RuntimeFault Number :=
  match op with
  | .add => .ok (.int (a + b))
  | .sub => .ok (.int (a - b))
  | .mul => .ok (.int (a * b))
  | .div => (divideIntegers a b).map .float
  | .floorDiv => if b = 0 then .error .integerDivisionByZero else .ok (.int (a.fdiv b))
  | .mod => if b = 0 then .error .integerModuloByZero else .ok (.int (a.fmod b))
  | .pow =>
    if 0 ≤ b then .ok (.int (a ^ b.toNat))
    else do return .float (← floatPower (← asFloat (.int a)) (← asFloat (.int b)))

def floatOperation (op : BinaryOp) (x y : Float) : Except RuntimeFault Float :=
  match op with
  | .add => .ok (x + y)
  | .sub => .ok (x - y)
  | .mul => .ok (x * y)
  | .div => if y == 0.0 then .error .floatDivisionByZero else .ok (x / y)
  | .floorDiv =>
    if y == 0.0 then .error .floatFloorDivisionByZero else .ok (floatFloorDiv x y).1
  | .mod => if y == 0.0 then .error .floatModuloByZero else .ok (floatFloorDiv x y).2
  | .pow => floatPower x y

def arithmetic (op : BinaryOp) : Number → Number → Except RuntimeFault Number
  | .int a, .int b => integerOperation op a b
  | m, n => do return .float (← floatOperation op (← asFloat m) (← asFloat n))

def negate : Number → Number
  | .int n => .int (-n)
  | .float x => .float (-x)

def absolute : Number → Number
  | .int n => .int n.natAbs
  | .float x => .float x.abs

end BlockWorkbench.Script
