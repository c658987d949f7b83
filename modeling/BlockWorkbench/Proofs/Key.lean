import BlockWorkbench.Json.Convert
import BlockWorkbench.Proofs.Outcome

/-!
Keys compared by meaning. Sameness of keys is symmetric and transitive; it is not reflexive, since
a float that is not a number is no key's equal. Entries kept under keys are therefore found again
under the key with which they are stored, and setting an entry that is found moves no other.
-/

namespace BlockWorkbench

namespace Number

/-- A finite float in a unit that is finer by `2 ^ k`. -/
theorem Binary.shifted_add (x : Binary) (shift : Int) (k : Nat) (h : 0 ≤ x.exponent + shift) :
    x.shifted (shift + k) = x.shifted shift * 2 ^ k := by
  have hexp : (x.exponent + (shift + k)).toNat = (x.exponent + shift).toNat + k := by omega
  unfold Binary.shifted
  simp only [hexp, Nat.pow_add, ← Nat.mul_assoc]
  split <;> simp

/-- Finite floats are equal if they count the same number of any unit that divides both. -/
theorem Binary.compare_eq_iff (x y : Binary) (unit : Int) (hx : unit ≤ x.exponent)
    (hy : unit ≤ y.exponent) :
    x.compare y = .eq ↔ x.shifted (-unit) = y.shifted (-unit) := by
  have hunit : -unit = -min x.exponent y.exponent + (min x.exponent y.exponent - unit).toNat := by
    omega
  rw [hunit, x.shifted_add _ _ (by omega), y.shifted_add _ _ (by omega)]
  simp only [Binary.compare, Std.compare_eq_iff_eq]
  have hpos : (2 : Int) ^ (min x.exponent y.exponent - unit).toNat ≠ 0 :=
    Int.pow_ne_zero (by decide)
  exact ⟨fun h => by rw [h], fun h => Int.eq_of_mul_eq_mul_right hpos h⟩

theorem compareExact?_symm {a b : FloatClass} (h : compareExact? a b = some .eq) :
    compareExact? b a = some .eq := by
  cases a with
  | nan => simp [compareExact?] at h
  | infinite s =>
      cases b with
      | nan => simp [compareExact?] at h
      | infinite t => simp_all [compareExact?]
      | finite y => cases s <;> simp [compareExact?] at h
  | finite x =>
      cases b with
      | nan => simp [compareExact?] at h
      | infinite t => cases t <;> simp [compareExact?] at h
      | finite y =>
          simp only [compareExact?, Option.some.injEq] at h ⊢
          have hx : min x.exponent y.exponent ≤ x.exponent := Int.min_le_left ..
          have hy : min x.exponent y.exponent ≤ y.exponent := Int.min_le_right ..
          rw [Binary.compare_eq_iff _ _ _ hx hy] at h
          exact (Binary.compare_eq_iff _ _ _ hy hx).mpr h.symm

theorem compareExact?_trans {a b c : FloatClass} (h : compareExact? a b = some .eq)
    (h' : compareExact? b c = some .eq) : compareExact? a c = some .eq := by
  cases b with
  | nan => simp [compareExact?] at h'
  | infinite t =>
      cases a with
      | nan => simp [compareExact?] at h
      | infinite s => simp_all [compareExact?]
      | finite x => cases t <;> simp [compareExact?] at h
  | finite y =>
      cases a with
      | nan => simp [compareExact?] at h
      | infinite s => cases s <;> simp [compareExact?] at h
      | finite x =>
          cases c with
          | nan => simp [compareExact?] at h'
          | infinite t => cases t <;> simp [compareExact?] at h'
          | finite z =>
              simp only [compareExact?, Option.some.injEq] at h h' ⊢
              have hunit : ∃ unit, unit ≤ x.exponent ∧ unit ≤ y.exponent ∧ unit ≤ z.exponent :=
                ⟨min x.exponent (min y.exponent z.exponent), by omega, by omega, by omega⟩
              obtain ⟨unit, hx, hy, hz⟩ := hunit
              rw [Binary.compare_eq_iff _ _ unit hx hy] at h
              rw [Binary.compare_eq_iff _ _ unit hy hz] at h'
              exact (Binary.compare_eq_iff _ _ unit hx hz).mpr (h.trans h')

theorem same_symm {a b : Number} (h : a.same b) : b.same a := by
  simp only [same, compare?, beq_iff_eq] at h ⊢
  exact compareExact?_symm h

theorem same_trans {a b c : Number} (h : a.same b) (h' : b.same c) : a.same c := by
  simp only [same, compare?, beq_iff_eq] at h h' ⊢
  exact compareExact?_trans h h'

end Number

namespace Scalar

theorem same_iff {a b : Scalar} :
    a.same b ↔ (a = .null ∧ b = .null) ∨ (∃ s, a = .str s ∧ b = .str s) ∨
      ∃ m n, a.number? = some m ∧ b.number? = some n ∧ m.same n := by
  cases a <;> cases b <;>
    simp [same, toJson, Json.same, number?, Json.number?]
  case str.str s t => exact eq_comm

theorem same_symm {a b : Scalar} (h : a.same b) : b.same a := by
  rw [same_iff] at h ⊢
  obtain ⟨ha, hb⟩ | ⟨s, ha, hb⟩ | ⟨m, n, ha, hb, hmn⟩ := h
  · exact .inl ⟨hb, ha⟩
  · exact .inr (.inl ⟨s, hb, ha⟩)
  · exact .inr (.inr ⟨n, m, hb, ha, Number.same_symm hmn⟩)

theorem same_trans {a b c : Scalar} (h : a.same b) (h' : b.same c) : a.same c := by
  rw [same_iff] at h h' ⊢
  obtain ⟨ha, hb⟩ | ⟨s, ha, hb⟩ | ⟨m, n, ha, hb, hmn⟩ := h
  · obtain ⟨-, hc⟩ | ⟨t, hb', hc⟩ | ⟨n', k, hb', hc, hnk⟩ := h'
    · exact .inl ⟨ha, hc⟩
    · simp [hb] at hb'
    · simp [hb, number?, toJson, Json.number?] at hb'
  · obtain ⟨hb', hc⟩ | ⟨t, hb', hc⟩ | ⟨n', k, hb', hc, hnk⟩ := h'
    · simp [hb] at hb'
    · exact .inr (.inl ⟨t, by simp_all, hc⟩)
    · simp [hb, number?, toJson, Json.number?] at hb'
  · obtain ⟨hb', hc⟩ | ⟨t, hb', hc⟩ | ⟨n', k, hb', hc, hnk⟩ := h'
    · simp [hb', number?, toJson, Json.number?] at hb
    · simp [hb', number?, toJson, Json.number?] at hb
    · cases Option.some.inj (hb.symm.trans hb')
      exact .inr (.inr ⟨m, k, ha, hc, Number.same_trans hmn hnk⟩)

/-- Keys that are the same are the same as the same keys. -/
theorem same_congr {a b : Scalar} (h : a.same b) (c : Scalar) : c.same a = c.same b := by
  rw [Bool.eq_iff_iff]
  exact ⟨fun hc => same_trans hc h, fun hc => same_trans hc (same_symm h)⟩

end Scalar

end BlockWorkbench
