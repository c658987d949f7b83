import BlockWorkbench.Number.Binary

/-!
Numbers that are integers of any size or floats. The two are compared by exact value, so no
integer is rounded on the way.
-/

namespace BlockWorkbench

inductive Number where
  | int (n : Int)
  | float (x : Float)
  deriving Repr

namespace Number

/-- The exact value of a number. -/
def exact : Number → FloatClass
  | .int n => .finite ⟨decide (n < 0), n.natAbs, 0⟩
  | .float x => classify x

/-- The order of two exact values, unless one of them is not a number. -/
def compareExact? : FloatClass → FloatClass → Option Ordering
  | .nan, _ | _, .nan => none
  | .infinite a, .infinite b => some (compare b a)
  | .infinite negative, .finite _ => some (if negative then .lt else .gt)
  | .finite _, .infinite negative => some (if negative then .gt else .lt)
  | .finite a, .finite b => some (a.compare b)

/-- The order of two numbers, unless one of them is not a number. -/
def compare? (a b : Number) : Option Ordering := compareExact? a.exact b.exact

/-- Equality of value: `1` and `1.0` are the same number. -/
def same (a b : Number) : Bool := a.compare? b == some .eq

def less (a b : Number) : Bool := a.compare? b == some .lt

def atMost (a b : Number) : Bool := a.less b || a.same b

end Number

end BlockWorkbench
