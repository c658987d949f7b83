import BlockWorkbench.Proofs.Number.Rounding

/-!
The shortest decimal of a float lies in the interval of the numbers that round to it. Seventeen
digits are always enough, since steps of the last of them are smaller than the interval.
-/

namespace BlockWorkbench.Number

/-- What a decimal stands for. -/
def Decimal.value (d : Decimal) : ℚ := d.digits * 10 ^ d.exponent

theorem gridStep_value (place unit : Int) :
    ((gridStep place unit).1 : ℚ) / (gridStep place unit).2 = 10 ^ place / 2 ^ unit := by
  simp only [gridStep, scaledBy_value]
  congr 1
  split
  · obtain ⟨n, rfl⟩ := Int.eq_ofNat_of_zero_le ‹0 ≤ place›
    simp
  · obtain ⟨n, rfl⟩ : ∃ n : Nat, place = -n := ⟨(-place).toNat, by omega⟩
    simp

theorem gridStep_pos (place unit : Int) :
    0 < (gridStep place unit).1 ∧ 0 < (gridStep place unit).2 := by
  simp only [gridStep, scaledBy]
  split_ifs <;> constructor <;> positivity

/-- Whether a multiple of a power of ten is in an interval. -/
theorem holds_grid_iff {i : Interval} {place unit : Int} {k : Nat} :
    i.holds (k * (gridStep place unit).1) (gridStep place unit).2 = true ↔
      i.Contains (Decimal.value ⟨k, place⟩ / 2 ^ unit) := by
  rw [Interval.holds_iff (gridStep_pos place unit).2, Nat.cast_mul, mul_div_assoc, gridStep_value,
    Decimal.value, mul_div_assoc]

/-- A decimal found on a grid is positive and in the interval. -/
theorem onGrid?_contains {i : Interval} {place unit : Int} {d : Decimal}
    (h : i.onGrid? unit place = some d) : 0 < d.digits ∧ i.Contains (d.value / 2 ^ unit) := by
  simp only [Interval.onGrid?] at h
  generalize hbelow : i.value * (gridStep place unit).2 / (gridStep place unit).1 = below at h
  have lower (hb : (decide (0 < below) &&
      i.holds (below * (gridStep place unit).1) (gridStep place unit).2) = true) :
      0 < below ∧ i.Contains (Decimal.value ⟨below, place⟩ / 2 ^ unit) := by
    simpa [holds_grid_iff] using hb
  have upper (ha : i.holds ((below + 1) * (gridStep place unit).1) (gridStep place unit).2 = true) :
      0 < below + 1 ∧ i.Contains (Decimal.value ⟨below + 1, place⟩ / 2 ^ unit) :=
    ⟨Nat.succ_pos _, holds_grid_iff.mp ha⟩
  split_ifs at h with hboth hnear hfar heven hb ha <;> cases h
  · exact lower (Bool.and_eq_true_iff.mp hboth).1
  · exact upper (Bool.and_eq_true_iff.mp hboth).2
  · exact lower (Bool.and_eq_true_iff.mp hboth).1
  · exact upper (Bool.and_eq_true_iff.mp hboth).2
  · exact lower hb
  · exact upper ha

/-- The neighbours of a value on a grid. -/
theorem grid_neighbours (i : Interval) (place unit : Int) :
    Decimal.value ⟨i.value * (gridStep place unit).2 / (gridStep place unit).1, place⟩ / 2 ^ unit ≤
        i.value ∧
      i.value <
        Decimal.value ⟨i.value * (gridStep place unit).2 / (gridStep place unit).1 + 1, place⟩ /
          2 ^ unit := by
  obtain ⟨hnum, hden⟩ := gridStep_pos place unit
  have hden' : (0 : ℚ) < (gridStep place unit).2 := by exact_mod_cast hden
  simp only [Decimal.value, mul_div_assoc, ← gridStep_value]
  constructor
  · rw [← mul_div_assoc, div_le_iff₀ hden']
    exact_mod_cast Nat.div_mul_le_self _ _
  · rw [← mul_div_assoc, lt_div_iff₀ hden']
    exact_mod_cast (Nat.div_lt_iff_lt_mul hnum).mp (Nat.lt_succ_self _)

theorem onGrid?_isSome {i : Interval} {place unit : Int} {below : Nat}
    (hbelow : i.value * (gridStep place unit).2 / (gridStep place unit).1 = below)
    (h : 0 < below ∧ i.Contains (Decimal.value ⟨below, place⟩ / 2 ^ unit) ∨
      i.Contains (Decimal.value ⟨below + 1, place⟩ / 2 ^ unit)) :
    (i.onGrid? unit place).isSome := by
  simp only [← holds_grid_iff] at h
  simp only [Interval.onGrid?, hbelow]
  split_ifs <;> simp_all

theorem lt_pow_length_toDigits (n : Nat) : n < 10 ^ (Nat.toDigits 10 n).length :=
  (Nat.length_toDigits_le_iff (by decide) Nat.length_toDigits_pos).mp le_rfl

theorem pow_length_toDigits_le {n : Nat} (hn : 0 < n) :
    10 ^ ((Nat.toDigits 10 n).length - 1) ≤ n := by
  obtain hone | hmore := Nat.eq_zero_or_pos ((Nat.toDigits 10 n).length - 1)
  · rw [hone]
    exact hn
  · by_contra hlt
    have := (Nat.length_toDigits_le_iff (b := 10) (by decide) hmore).mpr (not_le.mp hlt)
    omega

/-- The leading digit of a ratio is no zero. -/
theorem pow_leadingPlace_le {num den : Nat} (hnum : 0 < num) (hden : 0 < den) :
    (10 : ℚ) ^ leadingPlace num den ≤ num / den := by
  have hnum' : (0 : ℚ) < num := by exact_mod_cast hnum
  have hden' : (0 : ℚ) < den := by exact_mod_cast hden
  unfold leadingPlace
  split
  · have hlen := pow_length_toDigits_le (Nat.div_pos ‹den ≤ num› hden)
    rw [show ((Nat.toDigits 10 (num / den)).length : Int) - 1 =
      ((Nat.toDigits 10 (num / den)).length - 1 : Nat) by
        have := Nat.length_toDigits_pos (b := 10) (n := num / den)
        omega, zpow_natCast]
    calc (10 : ℚ) ^ ((Nat.toDigits 10 (num / den)).length - 1) ≤ (num / den : Nat) := by
          exact_mod_cast hlen
      _ ≤ num / den := Nat.cast_div_le
  · have hlen : den < 10 ^ (Nat.toDigits 10 (den / num)).length * num :=
      (Nat.div_lt_iff_lt_mul hnum).mp (lt_pow_length_toDigits _)
    rw [zpow_neg, zpow_natCast, inv_le_iff_one_le_mul₀ (by positivity), div_mul_eq_mul_div,
      one_le_div₀ hden', mul_comm]
    exact_mod_cast hlen.le

section Finest

variable {x : Binary}

/-- The grid of the seventeenth digit has a number in the interval. -/
theorem onGrid?_seventeenth (hx : x.IsFloat) (hpos : 0 < x.significand) {place : Int}
    (hplace : (10 : ℚ) ^ place ≤ x.significand * 2 ^ x.exponent) :
    (x.interval.onGrid? (x.exponent - 2) (place - 16)).isSome := by
  have hunit : (0 : ℚ) < 2 ^ (x.exponent - 2) := by positivity
  generalize hstep : (10 : ℚ) ^ (place - 16) / 2 ^ (x.exponent - 2) = step
  have hvalue (k : Nat) : Decimal.value ⟨k, place - 16⟩ / 2 ^ (x.exponent - 2) = k * step := by
    rw [Decimal.value, mul_div_assoc, hstep]
  have hfine : 10 ^ 16 * step ≤ 4 * x.significand := by
    rw [← hstep, ← mul_div_assoc, div_le_iff₀ hunit]
    calc (10 : ℚ) ^ 16 * 10 ^ (place - 16) = 10 ^ place := by
          rw [← zpow_natCast, ← zpow_add₀ (by norm_num)]
          congr 1
          push_cast
          ring
      _ ≤ x.significand * 2 ^ x.exponent := hplace
      _ = 4 * x.significand * 2 ^ (x.exponent - 2) := by
          rw [zpow_sub₀ two_ne_zero]
          ring
  have hneighbours := grid_neighbours x.interval (place - 16) (x.exponent - 2)
  refine onGrid?_isSome rfl ?_
  generalize x.interval.value * (gridStep (place - 16) (x.exponent - 2)).2 /
    (gridStep (place - 16) (x.exponent - 2)).1 = below at hneighbours ⊢
  simp only [hvalue, Nat.cast_add, Nat.cast_one, add_one_mul] at hneighbours ⊢
  have hcenter : (x.interval.value : ℚ) = 4 * x.significand := by simp [Binary.interval]
  have hhigh : (x.interval.high : ℚ) = 4 * x.significand + 2 := by simp [Binary.interval]
  have hone : (1 : ℚ) ≤ x.significand := by exact_mod_cast hpos
  rw [hcenter] at hneighbours
  obtain ⟨hleft, hright⟩ := hneighbours
  by_cases hedge : x.significand = fractions ∧ -1074 < x.exponent
  · -- the step is less than the upper half of the interval
    have hlow : (x.interval.low : ℚ) < 4 * x.significand := by
      have := x.interval_low_bounds.2
      exact_mod_cast (by omega : x.interval.low < 4 * x.significand)
    have hsmall : step < 2 := by
      rw [hedge.1] at hfine
      norm_num [fractions] at hfine
      linarith
    refine .inr ⟨⟨?_, ?_⟩, .inr ⟨?_, ?_⟩⟩ <;> linarith
  · -- the step is less than the whole interval, so one of the neighbours is near enough
    have hlow : (x.interval.low : ℚ) = 4 * x.significand - 2 := by
      have : x.interval.low = 4 * x.significand - 2 := by simp [Binary.interval, hedge]
      rw [this, Nat.cast_sub (by omega)]
      push_cast
      ring
    have hsmall : step < 4 := by
      have : (x.significand : ℚ) < 9007199254740992 := by exact_mod_cast hx.lt
      linarith
    by_cases hnear : 4 * x.significand - 2 < below * step
    · refine .inl ⟨?_, ⟨?_, ?_⟩, .inr ⟨?_, ?_⟩⟩
      · by_contra hzero
        have : (below : ℚ) = 0 := by exact_mod_cast Nat.eq_zero_of_not_pos hzero
        rw [this, zero_mul] at hnear
        linarith
      all_goals linarith
    · refine .inr ⟨⟨?_, ?_⟩, .inr ⟨?_, ?_⟩⟩ <;> linarith

theorem trimmed_spec (fuel : Nat) (d : Decimal) :
    (d.trimmed fuel).value = d.value ∧ (0 < d.digits → 0 < (d.trimmed fuel).digits) := by
  induction fuel generalizing d with
  | zero => exact ⟨rfl, id⟩
  | succ fuel ih =>
      unfold Decimal.trimmed
      split
      · rename_i hzero
        obtain ⟨hvalue, hdigits⟩ := ih ⟨d.digits / 10, d.exponent + 1⟩
        refine ⟨hvalue.trans ?_, fun _ => hdigits (show 0 < d.digits / 10 by omega)⟩
        have hten : (d.digits : ℚ) = 10 * (d.digits / 10 : Nat) := by
          exact_mod_cast (by omega : d.digits = 10 * (d.digits / 10))
        rw [Decimal.value, Decimal.value, zpow_add_one₀ (by norm_num), hten]
        ring
      · exact ⟨rfl, id⟩

/-- The shortest decimal of a float is one that rounds to it. -/
theorem shortest_contains (hx : x.IsFloat) (hpos : 0 < x.significand) :
    0 < x.shortest.digits ∧
      x.interval.Contains (x.shortest.value / 2 ^ (x.exponent - 2)) := by
  simp only [Binary.shortest]
  have hplace : (10 : ℚ) ^ leadingPlace (scaledBy x.significand 1 (-x.exponent)).1
      (scaledBy x.significand 1 (-x.exponent)).2 ≤ x.significand * 2 ^ x.exponent := by
    refine (pow_leadingPlace_le ?_ (scaledBy_pos Nat.one_pos _)).trans_eq ?_
    · simp only [scaledBy]
      split_ifs <;> positivity
    · simp [scaledBy_value]
  generalize leadingPlace _ _ = place at hplace ⊢
  have hsome : ((List.range 17).findSome? fun n : Nat =>
      x.interval.onGrid? (x.exponent - 2) (place - n)).isSome := by
    rw [List.findSome?_isSome_iff]
    exact ⟨16, by simp, onGrid?_seventeenth hx hpos hplace⟩
  obtain ⟨d, hd⟩ := Option.isSome_iff_exists.mp hsome
  obtain ⟨n, -, hgrid⟩ := List.exists_of_findSome?_eq_some hd
  obtain ⟨hdigits, hcontains⟩ := onGrid?_contains hgrid
  obtain ⟨hvalue, htrimmed⟩ := trimmed_spec 20 d
  rw [hd, Option.getD_some, hvalue]
  exact ⟨htrimmed hdigits, hcontains⟩

/-- The leading digit of a shortest decimal stands far from the ends of what exponents can be. -/
theorem shortest_place_bounds (hx : x.IsFloat) (hpos : 0 < x.significand) :
    -1077 < x.shortest.exponent + (Nat.toDigits 10 x.shortest.digits).length - 1 ∧
      x.shortest.exponent + (Nat.toDigits 10 x.shortest.digits).length - 1 < 1024 := by
  obtain ⟨hdigits, ⟨hlow, hhigh⟩, -⟩ := shortest_contains hx hpos
  have hlength := Nat.length_toDigits_pos (b := 10) (n := x.shortest.digits)
  have hbelow := pow_length_toDigits_le hdigits
  have habove := lt_pow_length_toDigits x.shortest.digits
  have hunit : (0 : ℚ) < 2 ^ (x.exponent - 2) := by positivity
  rw [le_div_iff₀ hunit] at hlow
  rw [div_le_iff₀ hunit] at hhigh
  unfold Decimal.value at hlow hhigh
  generalize x.shortest.digits = digits at *
  generalize x.shortest.exponent = exponent at *
  generalize (Nat.toDigits 10 digits).length = length at *
  obtain ⟨hlt, hleast, hgreatest, -⟩ := hx
  have hten : (0 : ℚ) < 10 ^ exponent := by positivity
  -- A place beyond either bound would put the decimal outside the interval of the float: below its
  -- low end, or above its high end.
  constructor
  · refine lt_of_not_ge fun hplace => ?_
    have hlow' : (1 : ℚ) ≤ x.interval.low := by
      have := x.interval_low_bounds.1
      exact_mod_cast (by omega : 1 ≤ x.interval.low)
    have : (digits : ℚ) * 10 ^ exponent < digits * 10 ^ exponent := calc
      (digits : ℚ) * 10 ^ exponent < 10 ^ length * 10 ^ exponent := by
          gcongr
          exact_mod_cast habove
      _ = 10 ^ (length + exponent : Int) := by rw [zpow_add₀ (by norm_num), zpow_natCast]
      _ ≤ 10 ^ (-1076 : Int) := zpow_le_zpow_right₀ (by norm_num) (by omega)
      _ ≤ 2 ^ (-1076 : Int) := by
          rw [zpow_neg, zpow_neg]
          gcongr
          exact zpow_le_zpow_left₀ (by norm_num) (by norm_num) (by norm_num)
      _ ≤ 2 ^ (x.exponent - 2) := zpow_le_zpow_right₀ one_le_two (by omega)
      _ ≤ x.interval.low * 2 ^ (x.exponent - 2) := le_mul_of_one_le_left hunit.le hlow'
      _ ≤ digits * 10 ^ exponent := hlow
    exact lt_irrefl _ this
  · refine lt_of_not_ge fun hplace => ?_
    have hhigh' : (x.interval.high : ℚ) ≤ 2 ^ (55 : Int) := by
      have : x.interval.high ≤ 2 ^ 55 := by
        simp only [Binary.interval, fractions] at hlt ⊢
        omega
      exact_mod_cast this
    have : (10 : ℚ) ^ (1024 : Int) < 10 ^ (1024 : Int) := calc
      (10 : ℚ) ^ (1024 : Int) ≤ 10 ^ ((length - 1 : Nat) + exponent : Int) :=
          zpow_le_zpow_right₀ (by norm_num) (by omega)
      _ = (10 ^ (length - 1) : Nat) * 10 ^ exponent := by
          rw [zpow_add₀ (by norm_num), zpow_natCast]
          norm_cast
      _ ≤ digits * 10 ^ exponent := by gcongr
      _ ≤ x.interval.high * 2 ^ (x.exponent - 2) := hhigh
      _ ≤ 2 ^ (55 : Int) * 2 ^ (969 : Int) := by
          gcongr
          · exact one_le_two
          · omega
      _ = 2 ^ (1024 : Int) := by rw [← zpow_add₀ two_ne_zero]; rfl
      _ < 10 ^ (1024 : Int) := zpow_lt_zpow_left₀ (by norm_num) (by norm_num) (by norm_num)
    exact lt_irrefl _ this

end Finest

end BlockWorkbench.Number
