import BlockWorkbench.Proofs.Number.Shortest

/-!
Floats and their bits. A float is known by its bits, of which the first is the sign; so a decimal
in the interval of a finite float is read as that float.
-/

namespace BlockWorkbench.Number

open Float.Model (UnpackedFloat)
open Float.Model.UnpackedFloat (packComponents)
open Float.Model.Format (binary64)

theorem unpackExponent_toNat (b : BitVec 64) :
    (@UnpackedFloat.unpackExponent binary64 b).toNat = b.toNat / fractions % 0x800 := by
  simp [UnpackedFloat.unpackExponent, fractions, Nat.shiftRight_eq_div_pow]

theorem unpackMantissa_toNat (b : BitVec 64) :
    (@UnpackedFloat.unpackMantissa binary64 b).toNat = b.toNat % fractions := by
  simp [UnpackedFloat.unpackMantissa, fractions]

theorem packComponents_toNat (s : UnpackedFloat.Sign) (e : BitVec 11) (m : BitVec 52) :
    (packComponents binary64 s e m).toNat =
      s.toBitVec.toNat * 0x8000000000000000 + e.toNat * fractions + m.toNat := by
  have hinner : (s.toBitVec ++ e).toNat = s.toBitVec.toNat * 0x800 + e.toNat := by
    rw [BitVec.toNat_append, ← Nat.shiftLeft_add_eq_or_of_lt e.isLt, Nat.shiftLeft_eq]
  have houter : (s.toBitVec ++ e ++ m).toNat = (s.toBitVec ++ e).toNat * fractions + m.toNat := by
    rw [BitVec.toNat_append, ← Nat.shiftLeft_add_eq_or_of_lt m.isLt, Nat.shiftLeft_eq]
    rfl
  change (s.toBitVec ++ e ++ m).toNat = _
  rw [houter, hinner]
  simp only [fractions]
  ring

theorem pack_neg {u : UnpackedFloat} (h : u ≠ .notANumber) :
    ∃ s e m, u.pack binary64 = packComponents binary64 s e m ∧
      u.neg.pack binary64 = packComponents binary64 (-s) e m := by
  cases u with
  | notANumber => exact absurd rfl h
  | infinity s => exact ⟨s, _, _, rfl, rfl⟩
  | zero s => exact ⟨s, _, _, rfl, rfl⟩
  | finite s m e hm =>
      simp only [UnpackedFloat.neg, UnpackedFloat.pack]
      split_ifs
      · exact ⟨s, _, _, rfl, rfl⟩
      · exact ⟨s, _, _, rfl, rfl⟩
      · exact ⟨s, _, _, rfl, rfl⟩

/-- The part of the bits that says how large a float is. -/
def exponentField (bits : Nat) : Nat := bits / fractions % 0x800

theorem unpackExponent_ne {b : BitVec 64} (h : exponentField b.toNat ≠ 2047) :
    @UnpackedFloat.unpackExponent binary64 b ≠ -1#11 := by
  intro heq
  have := congrArg BitVec.toNat heq
  rw [unpackExponent_toNat] at this
  exact h this

theorem unpack_ne_notANumber {b : BitVec 64} (h : exponentField b.toNat ≠ 2047) :
    UnpackedFloat.unpack binary64 b ≠ .notANumber := by
  unfold UnpackedFloat.unpack
  simp only [unpackExponent_ne h, if_false]
  split_ifs <;> simp

theorem toBits_ofBits {bits : UInt64} (h : exponentField bits.toNat ≠ 2047) :
    (Float.ofBits bits).toBits = bits := by
  have hpack : UnpackedFloat.pack binary64 (UnpackedFloat.unpack binary64 bits.toBitVec) =
      bits.toBitVec := by
    rw [UnpackedFloat.pack_unpack, if_neg]
    exact fun hnan => unpackExponent_ne h (of_decide_eq_true hnan).1
  exact UInt64.toBitVec_inj.mp hpack

/-- Negation changes the sign bit. -/
theorem toBits_neg {x : Float} (h : exponentField x.toBits.toNat ≠ 2047) :
    (-x).toBits.toNat = (x.toBits.toNat + 0x8000000000000000) % 0x10000000000000000 := by
  obtain ⟨s, e, m, hpack, hneg⟩ := pack_neg (unpack_ne_notANumber h)
  have hx : x.toBits.toBitVec = packComponents binary64 s e m := by
    rw [← hpack]
    exact (UnpackedFloat.pack_unpack_of_valid x.toModel.valid).symm
  have hbits : x.toBits.toNat = (packComponents binary64 s e m).toNat := congrArg BitVec.toNat hx
  have hneg' : (-x).toBits.toNat = (packComponents binary64 (-s) e m).toNat :=
    congrArg BitVec.toNat hneg
  have he : e.toNat < 0x800 := e.isLt
  have hm : m.toNat < 0x10000000000000 := m.isLt
  have hs : (-s).toBitVec.toNat = 1 - s.toBitVec.toNat ∧ s.toBitVec.toNat ≤ 1 := by
    cases s <;> decide
  rw [hneg', hbits, packComponents_toNat, packComponents_toNat]
  simp only [fractions]
  omega

/-! ### What a float is classified as -/

theorem classify_nan {x : Float} (h : classify x = .nan) : x = notANumber := by
  simp only [classify] at h
  split_ifs at h with hfield hfraction
  have hexponent : @UnpackedFloat.unpackExponent binary64 x.toBits.toBitVec = -1#11 := by
    apply BitVec.eq_of_toNat_eq
    rw [unpackExponent_toNat]
    exact hfield
  have hmantissa : @UnpackedFloat.unpackMantissa binary64 x.toBits.toBitVec ≠ 0#52 := by
    intro hzero
    have := congrArg BitVec.toNat hzero
    rw [unpackMantissa_toNat] at this
    exact hfraction this
  have hbits := x.toModel.valid.eq_packedNaN hexponent hmantissa
  exact Float.toBits_inj.mp (UInt64.toBitVec_inj.mp hbits)

theorem eq_of_toBits {x y : Float} (h : x.toBits.toNat = y.toBits.toNat) : x = y :=
  Float.toBits_inj.mp (UInt64.toNat_inj.mp h)

theorem classify_infinite {x : Float} {negative : Bool} (h : classify x = .infinite negative) :
    x = signed negative infinity := by
  have hlt : x.toBits.toNat < 0x10000000000000000 := x.toBits.toNat_lt
  simp only [classify] at h
  split_ifs at h with hfield hfraction
  cases h
  simp only [fractions] at hfield hfraction
  by_cases hneg : 0x8000000000000000 ≤ x.toBits.toNat
  · simp only [hneg, decide_true]
    exact eq_of_toBits (y := -infinity) (by
      change x.toBits.toNat = 0xfff0000000000000
      omega)
  · simp only [hneg, decide_false]
    exact eq_of_toBits (y := infinity) (by
      change x.toBits.toNat = 0x7ff0000000000000
      omega)

theorem classify_finite {x : Float} {b : Binary} (h : classify x = .finite b) :
    b.IsFloat ∧ b.bits < 0x7ff0000000000000 ∧
      x.toBits.toNat = (if b.negative then 0x8000000000000000 else 0) + b.bits := by
  have hlt : x.toBits.toNat < 0x10000000000000000 := x.toBits.toNat_lt
  simp only [classify] at h
  generalize x.toBits.toNat = n at h hlt ⊢
  have hfraction : n % fractions < fractions := Nat.mod_lt _ (by decide)
  split_ifs at h with hfield hinfinite hleast <;> cases h
  · have hbits : Binary.bits ⟨decide (0x8000000000000000 ≤ n), n % fractions, -1074⟩ =
        n % fractions := by simp [Binary.bits]
    rw [hbits]
    refine ⟨⟨by dsimp only; omega, le_rfl, by simp, fun _ => rfl⟩, ?_, ?_⟩
    · simp only [fractions] at hfraction ⊢
      omega
    · simp only [fractions, decide_eq_true_eq] at hleast ⊢
      split <;> omega
  · have hbits : Binary.bits ⟨decide (0x8000000000000000 ≤ n), fractions + n % fractions,
        ((n / fractions % 0x800 : Nat) : Int) - 1075⟩ =
          (n / fractions % 0x800) * fractions + n % fractions := by
      simp only [Binary.bits, fractions] at hleast ⊢
      omega
    rw [hbits]
    refine ⟨⟨by dsimp only; omega, by dsimp only; omega, by dsimp only; omega, ?_⟩, ?_, ?_⟩
    · intro hlow
      dsimp only at hlow
      omega
    · simp only [fractions] at hfield hfraction ⊢
      omega
    · simp only [fractions, decide_eq_true_eq]
      split <;> omega

/-- A float is its bits behind its sign. -/
theorem signed_ofBits {x : Float} {b : Binary} (h : classify x = .finite b) :
    signed b.negative (Float.ofBits b.bits.toUInt64) = x := by
  obtain ⟨-, hlt, hbits⟩ := classify_finite h
  have hnat : b.bits.toUInt64.toNat = b.bits := by
    simp
    omega
  have hfield : exponentField b.bits ≠ 2047 := by
    simp only [exponentField, fractions]
    omega
  have hof : (Float.ofBits b.bits.toUInt64).toBits.toNat = b.bits := by
    rw [toBits_ofBits (by rwa [hnat]), hnat]
  apply eq_of_toBits
  cases hnegative : b.negative with
  | false => simp [signed, hof, hbits, hnegative]
  | true =>
      have hneg := toBits_neg (x := Float.ofBits b.bits.toUInt64) (by rwa [hof])
      rw [hof] at hneg
      simp only [signed, hbits, hnegative, if_true, hneg]
      omega

/-- A decimal in the interval of a finite float is read as that float. -/
theorem ofDecimal_eq {x : Float} {b : Binary} (h : classify x = .finite b)
    (hpos : 0 < b.significand) {d : Decimal}
    (hd : b.interval.Contains (d.value / 2 ^ (b.exponent - 2))) :
    ofDecimal b.negative d.digits d.exponent = x := by
  obtain ⟨hfloat, -, -⟩ := classify_finite h
  have hratio (num den : Nat) (hden : 0 < den) (hvalue : (num : ℚ) / den = d.value) :
      nearest? b.negative num den = some x := by
    rw [nearest?, nearestBits?_eq hfloat hpos hden (by rwa [hvalue]), Option.map_some,
      signed_ofBits h]
  by_cases hexponent : 0 ≤ d.exponent
  · have hvalue : ((d.digits * 10 ^ d.exponent.toNat : Nat) : ℚ) / (1 : Nat) = d.value := by
      obtain ⟨n, hn⟩ := Int.eq_ofNat_of_zero_le hexponent
      simp [Decimal.value, hn]
    simp only [ofDecimal, hexponent, if_true, hratio _ _ Nat.one_pos hvalue, Option.getD_some]
  · have hvalue : (d.digits : ℚ) / (10 ^ (-d.exponent).toNat : Nat) = d.value := by
      obtain ⟨n, hn⟩ : ∃ n : Nat, d.exponent = -n := ⟨(-d.exponent).toNat, by omega⟩
      simp [Decimal.value, hn, div_eq_mul_inv]
    simp only [ofDecimal, hexponent, if_false, hratio _ _ (by positivity) hvalue,
      Option.getD_some]

end BlockWorkbench.Number
