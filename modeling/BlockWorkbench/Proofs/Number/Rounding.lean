import Mathlib
import BlockWorkbench.Number.Shortest

/-!
Rounding to the nearest float. A ratio in the interval of a float is rounded to that float, also
where the interval reaches below a power of two into a range of smaller units.
-/

namespace BlockWorkbench.Number

/-! ### Ratios -/

section Ratios

variable {num den : Nat}

theorem scaledBy_value (num den : Nat) (k : Int) :
    ((scaledBy num den k).1 : ℚ) / (scaledBy num den k).2 = num / den / 2 ^ k := by
  unfold scaledBy
  split
  · obtain ⟨n, rfl⟩ := Int.eq_ofNat_of_zero_le ‹0 ≤ k›
    simp [div_div]
  · obtain ⟨n, rfl⟩ : ∃ n : Nat, k = -n := ⟨(-k).toNat, by omega⟩
    simp [mul_div_right_comm]

theorem scaledBy_pos (hden : 0 < den) (k : Int) : 0 < (scaledBy num den k).2 := by
  unfold scaledBy
  split <;> positivity

theorem scaledBy_lt_iff (hden : 0 < den) (k : Int) :
    (scaledBy num den k).1 < (scaledBy num den k).2 ↔ (num : ℚ) / den < 2 ^ k := by
  have hpos : (0 : ℚ) < (scaledBy num den k).2 := by exact_mod_cast scaledBy_pos hden k
  rw [← Nat.cast_lt (α := ℚ), ← div_lt_one hpos, scaledBy_value, div_lt_one (by positivity)]

theorem log_eq {r : ℚ} {k : Int} (hlow : 2 ^ k ≤ r) (hhigh : r < 2 ^ (k + 1)) :
    Int.log 2 r = k := by
  have hpos : 0 < r := lt_of_lt_of_le (by positivity) hlow
  have hle : k ≤ Int.log 2 r := (Int.zpow_le_iff_le_log one_lt_two hpos).mp (by exact_mod_cast hlow)
  have hlt : Int.log 2 r < k + 1 :=
    (Int.lt_zpow_iff_log_lt one_lt_two hpos).mp (by exact_mod_cast hhigh)
  omega

/-- The bit lengths of both parts give the logarithm up to one. -/
theorem log2Ratio_eq (hnum : 0 < num) (hden : 0 < den) :
    log2Ratio num den = Int.log 2 ((num : ℚ) / den) := by
  have hden' : (0 : ℚ) < den := by exact_mod_cast hden
  have hnumLow : (2 : ℚ) ^ (num.log2 : Int) ≤ num := by
    exact_mod_cast Nat.log2_self_le hnum.ne'
  have hnumHigh : (num : ℚ) < 2 ^ ((num.log2 : Int) + 1) := by
    exact_mod_cast Nat.lt_log2_self
  have hdenLow : (2 : ℚ) ^ (den.log2 : Int) ≤ den := by
    exact_mod_cast Nat.log2_self_le hden.ne'
  have hdenHigh : (den : ℚ) < 2 ^ ((den.log2 : Int) + 1) := by
    exact_mod_cast Nat.lt_log2_self
  unfold log2Ratio
  generalize (num.log2 : Int) = a at *
  generalize (den.log2 : Int) = b at *
  have hlow : (2 : ℚ) ^ (a - b - 1) ≤ num / den := by
    rw [le_div_iff₀ hden']
    calc (2 : ℚ) ^ (a - b - 1) * den ≤ 2 ^ (a - b - 1) * 2 ^ (b + 1) := by gcongr
      _ = 2 ^ a := by rw [← zpow_add₀ two_ne_zero]; congr 1; ring
      _ ≤ num := hnumLow
  have hhigh : (num : ℚ) / den < 2 ^ (a - b + 1) := by
    rw [div_lt_iff₀ hden']
    calc (num : ℚ) < 2 ^ (a + 1) := hnumHigh
      _ = 2 ^ (a - b + 1) * 2 ^ b := by rw [← zpow_add₀ two_ne_zero]; congr 1; ring
      _ ≤ 2 ^ (a - b + 1) * den := by gcongr
  simp only [scaledBy_lt_iff hden]
  split
  · exact (log_eq hlow (by simpa using ‹_›)).symm
  · exact (log_eq (not_lt.mp ‹_›) hhigh).symm

end Ratios

/-! ### Rounding to naturals -/

/-- Whether a ratio is rounded to a natural: it is at most a half away, and less if that is
odd. -/
def Rounds (v : ℚ) (q : Nat) : Prop :=
  (q - 1 / 2 ≤ v ∧ v ≤ q + 1 / 2) ∧ (q % 2 = 0 ∨ q - 1 / 2 < v ∧ v < q + 1 / 2)

/-- What rounding compares, in naturals. -/
theorem rounds_div_iff {n d q : Nat} (hd : 0 < d) : Rounds (n / d) q ↔
    (2 * q * d ≤ 2 * n + d ∧ 2 * n ≤ 2 * q * d + d) ∧
      (q % 2 = 0 ∨ 2 * q * d < 2 * n + d ∧ 2 * n < 2 * q * d + d) := by
  have hd' : (0 : ℚ) < d := by exact_mod_cast hd
  have hlow : (q : ℚ) - 1 / 2 ≤ n / d ↔ 2 * q * d ≤ 2 * n + d := by
    rw [le_div_iff₀ hd', ← Nat.cast_le (α := ℚ)]
    push_cast
    constructor <;> intro h <;> linarith
  have hhigh : (n : ℚ) / d ≤ q + 1 / 2 ↔ 2 * n ≤ 2 * q * d + d := by
    rw [div_le_iff₀ hd', ← Nat.cast_le (α := ℚ)]
    push_cast
    constructor <;> intro h <;> linarith
  have hlow' : (q : ℚ) - 1 / 2 < n / d ↔ 2 * q * d < 2 * n + d := by
    rw [lt_div_iff₀ hd', ← Nat.cast_lt (α := ℚ)]
    push_cast
    constructor <;> intro h <;> linarith
  have hhigh' : (n : ℚ) / d < q + 1 / 2 ↔ 2 * n < 2 * q * d + d := by
    rw [div_lt_iff₀ hd', ← Nat.cast_lt (α := ℚ)]
    push_cast
    constructor <;> intro h <;> linarith
  rw [Rounds, hlow, hhigh, hlow', hhigh']

theorem roundDiv_eq {n d q : Nat} (hd : 0 < d) (h : Rounds (n / d) q) : roundDiv n d = q := by
  obtain ⟨⟨hlow, hhigh⟩, htie⟩ := (rounds_div_iff hd).mp h
  have hsplit := Nat.div_add_mod n d
  have hrest := Nat.mod_lt n hd
  simp only [roundDiv]
  generalize n / d = p at *
  generalize n % d = r at *
  -- the quotient is the natural itself or the one before it
  have hle : q ≤ p + 1 := by
    by_contra hlt
    have : (p + 2) * d ≤ q * d := Nat.mul_le_mul_right d (by omega)
    nlinarith
  have hge : p ≤ q := by
    by_contra hlt
    have : (q + 1) * d ≤ p * d := Nat.mul_le_mul_right d (by omega)
    nlinarith
  obtain rfl | rfl : q = p ∨ q = p + 1 := by omega
  · have hvalue : 2 * n = 2 * q * d + 2 * r := by rw [← hsplit]; ring
    split_ifs <;> omega
  · have hvalue : 2 * n + 2 * d = 2 * (p + 1) * d + 2 * r := by rw [← hsplit]; ring
    split_ifs <;> omega

/-! ### Rounding to floats -/

/-- The finite binary numbers that are floats: 53 bits, all of them in use unless the exponent is
the least. -/
structure Binary.IsFloat (x : Binary) : Prop where
  lt : x.significand < 2 * fractions
  least : -1074 ≤ x.exponent
  greatest : x.exponent ≤ 971
  normal : x.significand < fractions → x.exponent = -1074

/-- The bits of a float without its sign. The leading bit of a significand in full use counts
towards the exponent. -/
def Binary.bits (x : Binary) : Nat := (x.exponent + 1074).toNat * fractions + x.significand

/-- Whether a number, in units of the interval, is in it. -/
def Interval.Contains (i : Interval) (v : ℚ) : Prop :=
  (i.low ≤ v ∧ v ≤ i.high) ∧ (i.closed = true ∨ i.low < v ∧ v < i.high)

theorem Interval.holds_iff {i : Interval} {num den : Nat} (hden : 0 < den) :
    i.holds num den = true ↔ i.Contains (num / den) := by
  have hden' : (0 : ℚ) < den := by exact_mod_cast hden
  have hlow : (i.low : ℚ) ≤ num / den ↔ i.low * den ≤ num := by
    rw [le_div_iff₀ hden']
    norm_cast
  have hhigh : (num : ℚ) / den ≤ i.high ↔ num ≤ i.high * den := by
    rw [div_le_iff₀ hden']
    norm_cast
  have hlow' : (i.low : ℚ) < num / den ↔ i.low * den < num := by
    rw [lt_div_iff₀ hden']
    norm_cast
  have hhigh' : (num : ℚ) / den < i.high ↔ num < i.high * den := by
    rw [div_lt_iff₀ hden']
    norm_cast
  rw [holds, Contains, hlow, hhigh, hlow', hhigh']
  cases i.closed with
  | true => simp
  | false =>
      simp only [Bool.false_eq_true, if_false, Bool.and_eq_true, decide_eq_true_eq, false_or]
      omega

section Nearest

variable {x : Binary}

theorem Binary.interval_low_bounds (x : Binary) :
    4 * x.significand - 2 ≤ x.interval.low ∧ x.interval.low ≤ 4 * x.significand - 1 := by
  unfold interval
  dsimp only
  split_ifs <;> omega

/-- The unit found for a number in the interval of a float is that of the float, unless the number
lies below a power of two. -/
theorem nearestUnit_eq (hx : x.IsFloat) (hpos : 0 < x.significand) {r : ℚ}
    (h : x.interval.Contains (r / 2 ^ (x.exponent - 2))) :
    0 < r ∧ (max (Int.log 2 r - 52) (-1074) = x.exponent ∨
      max (Int.log 2 r - 52) (-1074) = x.exponent - 1 ∧ x.significand = fractions) := by
  obtain ⟨hlt, hleast, -, hnormal⟩ := hx
  obtain ⟨⟨hlow, hhigh⟩, -⟩ := h
  have hunit : (0 : ℚ) < 2 ^ (x.exponent - 2) := by positivity
  rw [le_div_iff₀ hunit] at hlow
  rw [div_le_iff₀ hunit] at hhigh
  have hbounds := x.interval_low_bounds
  have hr : 0 < r := lt_of_lt_of_le (mul_pos (by exact_mod_cast (by omega)) hunit) hlow
  have hupper : Int.log 2 r < x.exponent + 53 := by
    refine (Int.lt_zpow_iff_log_lt one_lt_two hr).mp ?_
    calc r ≤ x.interval.high * 2 ^ (x.exponent - 2) := hhigh
      _ < (2 ^ 55 : Nat) * 2 ^ (x.exponent - 2) := by
          gcongr
          simp only [Binary.interval, fractions] at hlt ⊢
          omega
      _ = (2 : Nat) ^ (x.exponent + 53) := by
          rw [show x.exponent + 53 = x.exponent - 2 + 55 by ring, Nat.cast_two,
            zpow_add₀ two_ne_zero, mul_comm]
          norm_num
  have hlower (k : Nat) (hk : 2 ^ k ≤ x.interval.low) : x.exponent + k - 2 ≤ Int.log 2 r := by
    refine (Int.zpow_le_iff_le_log one_lt_two hr).mp ?_
    calc ((2 : Nat) : ℚ) ^ (x.exponent + k - 2) = (2 ^ k : Nat) * 2 ^ (x.exponent - 2) := by
          push_cast
          rw [← zpow_natCast, ← zpow_add₀ two_ne_zero]
          congr 1
          ring
      _ ≤ x.interval.low * 2 ^ (x.exponent - 2) := by gcongr
      _ ≤ r := hlow
  refine ⟨hr, ?_⟩
  simp only [fractions] at hlt hnormal ⊢
  -- Below `2 ^ 52` the float has the least unit, and above it the whole interval has the unit of
  -- the float; only at `2 ^ 52` does it reach below the power of two, where the unit is half.
  obtain hsmall | heq | hlarge := lt_trichotomy x.significand 0x10000000000000
  · have := hnormal hsmall
    omega
  · have := hlower 53 (by omega)
    omega
  · have := hlower 54 (by omega)
    omega

theorem rounds_of_interval {v : ℚ} (h : x.interval.Contains v) : Rounds (v / 4) x.significand := by
  obtain ⟨⟨hlow, hhigh⟩, htie⟩ := h
  have hbelow : 4 * (x.significand : ℚ) - 2 ≤ x.interval.low := by
    have := x.interval_low_bounds.1
    rw [tsub_le_iff_right] at this ⊢
    exact_mod_cast this
  have habove : (x.interval.high : ℚ) = 4 * x.significand + 2 := by
    simp [Binary.interval]
  have heven : x.interval.closed = true → x.significand % 2 = 0 := by
    simp [Binary.interval]
  refine ⟨⟨by linarith, by linarith⟩, htie.imp heven ?_⟩
  rintro ⟨hlow, hhigh⟩
  constructor <;> linarith

/-- Below a power of two a number is rounded in units of half the size. -/
theorem rounds_of_interval_below {v : ℚ} (h : x.interval.Contains v)
    (hs : x.significand = fractions) (he : -1074 < x.exponent) (hv : v < 4 * fractions) :
    Rounds (v / 2) (2 * fractions) := by
  have hlow : (4 * fractions - 1 : ℚ) ≤ v := by
    refine le_trans ?_ h.1.1
    have : x.interval.low = 4 * fractions - 1 := by simp [Binary.interval, hs, he]
    rw [this]
    norm_num [fractions]
  refine ⟨⟨?_, ?_⟩, .inl (by decide)⟩ <;> push_cast <;> linarith

/-- A ratio in the interval of a float is rounded to that float. -/
theorem nearestBits?_eq (hx : x.IsFloat) (hpos : 0 < x.significand) {num den : Nat}
    (hden : 0 < den)
    (h : x.interval.Contains ((num : ℚ) / den / 2 ^ (x.exponent - 2))) :
    nearestBits? num den = some x.bits := by
  obtain ⟨hr, hunit⟩ := nearestUnit_eq hx hpos h
  obtain ⟨hlt, hleast, hgreatest, hnormal⟩ := hx
  have hnum : num ≠ 0 := by
    rintro rfl
    simp at hr
  have hround {k : Int} {q : Nat} (hq : Rounds ((num : ℚ) / den / 2 ^ k) q) :
      roundDiv (scaledBy num den k).1 (scaledBy num den k).2 = q :=
    roundDiv_eq (scaledBy_pos hden k) (by rwa [scaledBy_value])
  have hbits (hs : fractions ≤ x.significand) :
      (x.exponent + 1075).toNat * fractions + (x.significand - fractions) = x.bits := by
    simp only [Binary.bits, fractions] at hs ⊢
    omega
  have hfinite : ¬ 2047 ≤ (x.exponent + 1075).toNat := by omega
  simp only [nearestBits?, hnum, hden.ne', or_self, if_false,
    log2Ratio_eq (Nat.pos_of_ne_zero hnum) hden]
  -- In half the unit the number is rounded up to the power of two, which is carried into the
  -- exponent.
  obtain hunit | ⟨hunit, hs⟩ := hunit
  · have hq : Rounds ((num : ℚ) / den / 2 ^ x.exponent) x.significand := by
      have := rounds_of_interval h
      rwa [div_div, zpow_sub₀ two_ne_zero, show (2 : ℚ) ^ (2 : Int) = 4 by norm_num,
        div_mul_cancel₀ _ four_ne_zero] at this
    rw [hunit, hround hq, if_neg hlt.ne]
    split_ifs with hs
    · rw [Binary.bits, hnormal hs]
      simp
    · rw [hbits (not_lt.mp hs)]
  · have hbelow : (num : ℚ) / den / 2 ^ (x.exponent - 2) < 4 * fractions := by
      have hlog : (num : ℚ) / den < (2 : Nat) ^ (x.exponent + 52) :=
        (Int.lt_zpow_iff_log_lt one_lt_two hr).mpr (by omega)
      rw [div_lt_iff₀ (by positivity)]
      refine hlog.trans_eq ?_
      rw [show x.exponent + 52 = x.exponent - 2 + 54 by ring, Nat.cast_two,
        zpow_add₀ two_ne_zero, mul_comm]
      norm_num [fractions]
    have hq : Rounds ((num : ℚ) / den / 2 ^ (x.exponent - 1)) (2 * fractions) := by
      have := rounds_of_interval_below h hs (by omega) hbelow
      rwa [div_div, ← zpow_add_one₀ two_ne_zero,
        show x.exponent - 2 + 1 = x.exponent - 1 by ring] at this
    rw [hunit, hround hq, if_pos rfl]
    simp only [lt_irrefl, if_false, sub_add_cancel, hfinite]
    rw [← hbits hs.ge, hs]

end Nearest

end BlockWorkbench.Number
