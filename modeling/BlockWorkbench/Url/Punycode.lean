/-!
Names of hosts beyond ASCII in letters, digits and hyphens. The ASCII characters of a label come
first; the others are inserted in the order of their numbers, each described by how far on from
the last one it is, in digits of base 36 whose weights adapt to the numbers met so far.
-/

namespace BlockWorkbench.Url.Punycode

/-- The digits are the letters and then the decimal digits. -/
def digit (d : Nat) : Char :=
  if d < 26 then Char.ofNat ('a'.toNat + d) else Char.ofNat ('0'.toNat + d - 26)

/-- The least value of a digit at position `k` that is not the last of its number. -/
def threshold (k bias : Nat) : Nat :=
  if k ≤ bias then 1 else if bias + 26 ≤ k then 26 else k - bias

theorem threshold_pos (k bias : Nat) : 1 ≤ threshold k bias := by
  unfold threshold; split <;> (try split) <;> omega

/-- A number in digits of variable weight, the lowest first. -/
def digits (bias k n : Nat) : List Char :=
  let t := threshold k bias
  if n < t then [digit n]
  else digit (t + (n - t) % (36 - t)) :: digits bias (k + 36) ((n - t) / (36 - t))
termination_by n
decreasing_by
  have _hpos := threshold_pos k bias
  calc (n - threshold k bias) / (36 - threshold k bias)
      ≤ n - threshold k bias := Nat.div_le_self _ _
    _ < n := by omega

/-- Divides a step by 35 until it is small, counting 36 for each division. -/
def shrink (step k : Nat) : Nat × Nat :=
  if 455 < step then shrink (step / 35) (k + 36) else (step, k)
termination_by step
decreasing_by exact Nat.div_lt_self (by omega) (by omega)

/-- The bias after a step, when `count` characters are placed. -/
def adapt (step count : Nat) (isFirst : Bool) : Nat :=
  let damped := if isFirst then step / 700 else step / 2
  let (small, k) := shrink (damped + damped / count) 0
  k + 36 * small / (small + 38)

/-- How far a label has been written. -/
structure Progress where
  written : List Char
  step : Nat
  bias : Nat
  placed : Nat

/-- Goes past one character of the label while those with the number `n` are placed. -/
def pass (basic n : Nat) (p : Progress) (c : Char) : Progress :=
  if c.toNat < n then { p with step := p.step + 1 }
  else if c.toNat = n then
    { written := p.written ++ digits p.bias 36 p.step, step := 0
      bias := adapt p.step (p.placed + 1) (p.placed = basic), placed := p.placed + 1 }
  else p

/-- Places the characters with the numbers given, in ascending order, from `next` on. -/
def place (label : List Char) (basic : Nat) : List Nat → Nat → Progress → Progress
  | [], _, p => p
  | n :: rest, next, p =>
    let p := { p with step := p.step + (n - next) * (p.placed + 1) }
    let p := label.foldl (pass basic n) p
    place label basic rest (n + 1) { p with step := p.step + 1 }

/-- A label that is not ASCII throughout. -/
def encode (label : List Char) : List Char :=
  let basic := label.filter fun c => c.toNat < 0x80
  let numbers := ((label.map Char.toNat).filter fun n => 0x80 ≤ n).mergeSort
  let progress := place label basic.length numbers.eraseDups 0x80 ⟨[], 0, 72, basic.length⟩
  basic ++ (if basic.isEmpty then [] else ['-']) ++ progress.written

end BlockWorkbench.Url.Punycode
