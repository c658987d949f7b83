import BlockWorkbench.Json.Reader
import BlockWorkbench.Json.Writer
import BlockWorkbench.Proofs.Number.Floats

/-!
Numbers written and read again. A number is taken apart into sign, whole part, fraction and
exponent, whatever follows it; the digits of a float stand for its shortest decimal in every
layout, so that each float is read as itself.
-/

namespace BlockWorkbench

namespace Number

theorem isDigit_eq (c : Char) : isDigit c = c.isDigit := by
  simp [isDigit, Char.isDigit, Char.le_def]

theorem toDigits_isDigit {n : Nat} {c : Char} (h : c ∈ Nat.toDigits 10 n) : isDigit c = true := by
  rw [isDigit_eq]
  exact Nat.isDigit_of_mem_toDigits (by decide) (by decide) h

theorem digitsValue_toDigits (n : Nat) : digitsValue (Nat.toDigits 10 n) = n := by
  have h := Nat.ofDigitChars_ten_toDigits (n := n)
  simpa only [digitsValue, Nat.ofDigitChars_eq_foldl, Nat.mul_comm] using h

/-- Only zero starts with a zero. -/
theorem toDigits_head (n : Nat) (hn : n ≠ 0) : (Nat.toDigits 10 n).head? ≠ some '0' := by
  rw [Nat.toDigits_eq_if (by decide)]
  split
  · rename_i h
    have hdigit : ∀ d, d < 10 → d ≠ 0 → Nat.digitChar d ≠ '0' := by decide
    simpa using hdigit n h hn
  · have ih := toDigits_head (n / 10) (by omega)
    rwa [List.head?_append_of_ne_nil _ Nat.toDigits_ne_nil]
termination_by n

theorem digitsValue_append (before after : List Char) :
    digitsValue (before ++ after) = digitsValue before * 10 ^ after.length + digitsValue after := by
  induction after using List.reverseRecOn with
  | nil => simp [digitsValue]
  | append_singleton after c ih =>
      rw [← List.append_assoc]
      simp only [digitsValue, List.foldl_append, List.foldl_cons, List.foldl_nil] at ih ⊢
      rw [ih, List.length_append, List.length_singleton, pow_succ]
      ring

@[simp]
theorem digitsValue_zeros (count : Nat) : digitsValue (List.replicate count '0') = 0 := by
  induction count with
  | zero => rfl
  | succ count ih => rw [List.replicate_succ', digitsValue_append, ih]; rfl

/-- A run of digits ends where no digit follows. -/
theorem takeWhile_isDigit {digits rest : List Char} (hdigits : ∀ c ∈ digits, isDigit c = true)
    (hrest : ∀ c, rest.head? = some c → isDigit c = false) :
    (digits ++ rest).takeWhile isDigit = digits := by
  rw [List.takeWhile_append_of_pos hdigits]
  cases rest with
  | nil => simp
  | cons c rest => simp [hrest c rfl]

end Number

namespace Json

open Number (isDigit digitsValue)

variable {τ : Type}

/-- What may follow a value: no digit and no part of a longer number. -/
def Ends (rest : List Char) : Prop :=
  ∀ c, rest.head? = some c → isDigit c = false ∧ c ≠ '.' ∧ c ≠ 'e' ∧ c ≠ 'E'

theorem ends_nil : Ends [] := by simp [Ends]

/-! ### Parts -/

/-- The digits in front of a point: a zero alone, or digits that start with another. -/
def WholePart (whole : List Char) : Prop :=
  whole = ['0'] ∨ whole ≠ [] ∧ whole.head? ≠ some '0' ∧ ∀ c ∈ whole, isDigit c = true

theorem wholePart_toDigits (n : Nat) : WholePart (Nat.toDigits 10 n) := by
  by_cases hn : n = 0
  · exact .inl (by rw [hn]; rfl)
  · exact .inr ⟨Nat.toDigits_ne_nil, Number.toDigits_head n hn, fun _ => Number.toDigits_isDigit⟩

theorem WholePart.digits {whole : List Char} (h : WholePart whole) :
    ∃ c cs, whole = c :: cs ∧ isDigit c = true := by
  obtain rfl | ⟨hne, -, hdigits⟩ := h
  · exact ⟨'0', [], rfl, rfl⟩
  · obtain ⟨c, cs, rfl⟩ := List.exists_cons_of_ne_nil hne
    exact ⟨c, cs, rfl, hdigits c List.mem_cons_self⟩

theorem wholeDigits_append {whole rest : List Char} (h : WholePart whole)
    (hrest : ∀ c, rest.head? = some c → isDigit c = false) : wholeDigits (whole ++ rest) = whole := by
  obtain rfl | ⟨hne, hhead, hdigits⟩ := h
  · rfl
  · unfold wholeDigits
    split
    · rename_i heq
      have hsame : (whole ++ rest).head? = whole.head? := List.head?_append_of_ne_nil whole hne
      rw [← hsame, heq] at hhead
      exact absurd rfl hhead
    · exact Number.takeWhile_isDigit hdigits hrest

/-- A sign as it is written. -/
def signText (negative : Bool) : List Char := if negative then ['-'] else []

/-- A fraction with its point, if there is one. -/
def pointText (fraction : List Char) : List Char :=
  if fraction = [] then [] else '.' :: fraction

variable (τ) in
/-- A number is read part by part. -/
theorem readNumber_parts (negative : Bool) (whole fraction after : List Char)
    (hwhole : WholePart whole) (hfraction : ∀ c ∈ fraction, isDigit c = true)
    (hafter : ∀ c, after.head? = some c → isDigit c = false ∧ c ≠ '.') :
    readNumber (signText negative ++ (whole ++ (pointText fraction ++ after))) =
      ((exponentPart? after).elim
        (if !fraction.isEmpty then .ok (.float (Number.assemble negative whole fraction 0), after)
        else if Number.digitLimit < whole.length then .error (.integerTooLong whole.length)
        else .ok (.int (if negative then -(digitsValue whole : Int) else digitsValue whole), after))
        fun e => .ok (.float (Number.assemble negative whole fraction
          (if e.1 then -(digitsValue e.2.1 : Int) else digitsValue e.2.1)),
          after.drop e.2.2) : Except ReadError (Json τ × List Char)) := by
  have hbody : wholeDigits (whole ++ (pointText fraction ++ after)) = whole := by
    refine wholeDigits_append hwhole ?_
    unfold pointText
    split
    · exact fun c hc => (hafter c hc).1
    · rintro c hc
      cases hc
      rfl
  have hpoint : fractionDigits (pointText fraction ++ after) = fraction := by
    unfold pointText
    split
    · rename_i hempty
      rw [List.nil_append, hempty]
      unfold fractionDigits
      split
      · exact absurd rfl (hafter '.' rfl).2
      · rfl
    · exact Number.takeWhile_isDigit hfraction fun c hc => (hafter c hc).1
  have hdrop : (if fraction.isEmpty then pointText fraction ++ after
      else (pointText fraction ++ after).drop (fraction.length + 1)) = after := by
    cases fraction <;> simp [pointText]
  obtain ⟨c, cs, hcons, hdigit⟩ := hwhole.digits
  have hempty : whole.isEmpty = false := by simp [hcons]
  -- `hsign` rules out the alternative of a sign from the context
  have hsign : ∀ rest, whole ++ (pointText fraction ++ after) ≠ '-' :: rest := by
    rintro rest heq
    rw [hcons] at heq
    cases heq
    exact absurd hdigit (by decide)
  cases negative <;> cases hexponent : exponentPart? after <;>
    simp only [readNumber, signText, if_true, if_false, List.cons_append, List.nil_append, hbody,
      hempty, List.drop_left, hpoint, hdrop, Bool.false_eq_true, hexponent, Option.elim_none,
      Option.elim_some]

theorem exponentPart?_of_ends {rest : List Char} (h : Ends rest) : exponentPart? rest = none := by
  cases rest with
  | nil => rfl
  | cons c cs =>
      obtain ⟨-, -, he, hE⟩ := h c rfl
      simp [exponentPart?, he, hE]

/-! ### Integers -/

theorem toString_int (n : Int) :
    (toString n).toList = signText (decide (n < 0)) ++ Nat.toDigits 10 n.natAbs := by
  rw [Int.toString_eq_repr]
  cases n with
  | ofNat m => simp [signText, Int.repr_eq_if, Nat.toList_repr]
  | negSucc m => simp [signText, Int.repr_eq_if, Nat.toList_repr, Int.negSucc_lt_zero]

/-- A written integer is read as itself. -/
theorem readNumber_int {n : Int} (hn : (Nat.toDigits 10 n.natAbs).length ≤ Number.digitLimit)
    {rest : List Char} (h : Ends rest) :
    readNumber ((toString n).toList ++ rest) = .ok ((.int n : Json τ), rest) := by
  have hread := readNumber_parts τ (decide (n < 0)) _ [] rest (wholePart_toDigits n.natAbs)
    (by simp) fun c hc => ⟨(h c hc).1, (h c hc).2.1⟩
  have hvalue : (if decide (n < 0) = true then -(n.natAbs : Int) else n.natAbs) = n := by
    by_cases hneg : n < 0
    · simp only [hneg, decide_true, if_true]
      omega
    · simp only [hneg, decide_false, Bool.false_eq_true, if_false]
      omega
  rw [pointText, if_pos rfl, List.nil_append, exponentPart?_of_ends h] at hread
  rw [toString_int, List.append_assoc, hread, Number.digitsValue_toDigits, hvalue]
  simp [Nat.not_lt_of_ge hn]

/-! ### Floats -/

theorem exponentPart?_write {place : Int} {digits rest : List Char} (hne : digits ≠ [])
    (hdigits : ∀ c ∈ digits, isDigit c = true) (h : Ends rest) :
    exponentPart? ('e' :: (if place < 0 then '-' else '+') :: (digits ++ rest)) =
      some (decide (place < 0), digits, digits.length + 2) := by
  have htake := Number.takeWhile_isDigit hdigits fun c hc => (h c hc).1
  have hempty : digits.isEmpty = false := by simp [hne]
  by_cases hneg : place < 0 <;>
    simp [exponentPart?, Number.splitSign, hneg, htake, hempty] <;> omega

theorem padded_spec (width n : Nat) :
    Number.padded width n ≠ [] ∧ (∀ c ∈ Number.padded width n, isDigit c = true) ∧
      digitsValue (Number.padded width n) = n := by
  refine ⟨by simp [Number.padded, Nat.toDigits_ne_nil], ?_, ?_⟩
  · intro c hc
    obtain hc | hc := List.mem_append.mp hc
    · rw [List.eq_of_mem_replicate hc]
      rfl
    · exact Number.toDigits_isDigit hc
  · rw [Number.padded, Number.digitsValue_append, Number.digitsValue_zeros, zero_mul, zero_add,
      Number.digitsValue_toDigits]

section Layouts

variable {digits : List Char}

theorem wholePart_of_head (hne : digits ≠ []) (hhead : digits.head? ≠ some '0')
    (hdigits : ∀ c ∈ digits, isDigit c = true) {count : Nat} (hcount : 0 < count) (zeros : Nat) :
    WholePart (digits.take count ++ List.replicate zeros '0') := by
  have htake : digits.take count ≠ [] := by
    rw [Ne, List.take_eq_nil_iff]
    simp [hne, hcount.ne']
  refine .inr ⟨by simp [htake], ?_, ?_⟩
  · rwa [List.head?_append_of_ne_nil _ htake, List.head?_take, if_neg hcount.ne']
  · intro c hc
    obtain hc | hc := List.mem_append.mp hc
    · exact hdigits c (List.mem_of_mem_take hc)
    · rw [List.eq_of_mem_replicate hc]
      rfl

/-- Digits with a point next to them or among them, and what they stand for. -/
theorem positional_parts (hne : digits ≠ []) (hhead : digits.head? ≠ some '0')
    (hdigits : ∀ c ∈ digits, isDigit c = true) (point : Int) :
    ∃ whole fraction, Number.positional digits point = whole ++ pointText fraction ∧
      WholePart whole ∧ fraction ≠ [] ∧ (∀ c ∈ fraction, isDigit c = true) ∧
      (digitsValue (whole ++ fraction) : ℚ) * 10 ^ (-fraction.length : Int) =
        digitsValue digits * 10 ^ (point - digits.length) := by
  have hzero : digitsValue ['0'] = 0 ∧ isDigit '0' = true := by decide
  unfold Number.positional
  -- The point stands before all digits, behind all of them, or between two.
  obtain hfirst | hfirst := le_or_gt point 0
  · refine ⟨['0'], List.replicate (-point).toNat '0' ++ digits, ?_, .inl rfl, by simp [hne], ?_, ?_⟩
    · simp [hfirst, pointText, hne]
    · intro c hc
      obtain hc | hc := List.mem_append.mp hc
      · rw [List.eq_of_mem_replicate hc]
        rfl
      · exact hdigits c hc
    · have hvalue : digitsValue (['0'] ++ (List.replicate (-point).toNat '0' ++ digits)) =
          digitsValue digits := by
        rw [Number.digitsValue_append, hzero.1, zero_mul, zero_add, Number.digitsValue_append,
          Number.digitsValue_zeros, zero_mul, zero_add]
      rw [hvalue, List.length_append, List.length_replicate]
      congr 2
      push_cast
      omega
  · obtain ⟨count, rfl⟩ := Int.eq_ofNat_of_zero_le hfirst.le
    rw [if_neg (not_le.mpr hfirst), Int.toNat_natCast]
    have hcount : 0 < count := by omega
    have hwhole := wholePart_of_head hne hhead hdigits hcount (count - (digits.take count).length)
    obtain hlong | hshort := le_or_gt digits.length count
    · refine ⟨_, ['0'], ?_, hwhole, by simp, by simp [hzero.2], ?_⟩
      · simp [List.drop_eq_nil_of_le hlong, pointText]
      · rw [List.take_of_length_le hlong, List.append_assoc, Number.digitsValue_append,
          Number.digitsValue_append, Number.digitsValue_zeros, hzero.1]
        simp only [List.length_append, List.length_replicate, List.length_singleton]
        push_cast
        rw [add_zero, mul_assoc, ← zpow_natCast, ← zpow_add₀ (by norm_num)]
        congr 2
        omega
    · have htake : (digits.take count).length = count := by simp [hshort.le]
      have hdrop : digits.drop count ≠ [] := by simp [hshort]
      rw [htake, Nat.sub_self, List.replicate_zero, List.append_nil] at hwhole
      refine ⟨_, digits.drop count, ?_, hwhole, hdrop,
        fun c hc => hdigits c (List.mem_of_mem_drop hc), ?_⟩
      · simp [htake, pointText, hdrop]
      · rw [List.take_append_drop, List.length_drop]
        congr 2
        omega

/-- The leading digit, the others behind a point, and an exponent. -/
theorem scientific_parts (hne : digits ≠ []) (hhead : digits.head? ≠ some '0')
    (hdigits : ∀ c ∈ digits, isDigit c = true) (width : Nat) (place : Int) :
    ∃ whole fraction, Number.scientific width digits place = whole ++ (pointText fraction ++
        'e' :: (if place < 0 then '-' else '+') :: Number.padded width place.natAbs) ∧
      WholePart whole ∧ (∀ c ∈ fraction, isDigit c = true) ∧ whole ++ fraction = digits ∧
      fraction.length + 1 = digits.length := by
  have hlength := List.length_pos_iff.mpr hne
  have hwhole := wholePart_of_head hne hhead hdigits Nat.one_pos 0
  refine ⟨digits.take 1, digits.drop 1, ?_, by simpa using hwhole,
    fun c hc => hdigits c (List.mem_of_mem_drop hc), List.take_append_drop 1 digits, ?_⟩
  · simp only [Number.scientific, pointText, List.drop_eq_nil_iff, List.append_assoc]
  · rw [List.length_drop]
    omega

end Layouts

section Floats

variable {x : Float} {b : Number.Binary}

/-- Digits that stand for the shortest decimal of a float make the float. -/
theorem assemble_eq (h : Number.classify x = .finite b) (hpos : 0 < b.significand)
    {whole fraction : List Char} {exponent : Int}
    (hlow : -Number.exponentBound ≤ exponent) (hhigh : exponent ≤ Number.exponentBound)
    (hvalue : (digitsValue (whole ++ fraction) : ℚ) * 10 ^ (exponent - fraction.length) =
      b.shortest.value) :
    Number.assemble b.negative whole fraction exponent = x := by
  obtain ⟨hdigits, hcontains⟩ := Number.shortest_contains (Number.classify_finite h).1 hpos
  have hne : digitsValue (whole ++ fraction) ≠ 0 := by
    intro hzero
    rw [hzero, Nat.cast_zero, zero_mul, Number.Decimal.value] at hvalue
    have : (0 : ℚ) < b.shortest.digits * 10 ^ b.shortest.exponent := by positivity
    linarith
  rw [Number.assemble, if_neg hne, if_neg (not_lt.mpr hhigh), if_neg (not_lt.mpr hlow)]
  exact Number.ofDecimal_eq h hpos
    (d := ⟨digitsValue (whole ++ fraction), exponent - fraction.length⟩)
    (by rwa [Number.Decimal.value, hvalue])

/-- A finite float that is not zero is read as itself. -/
theorem readNumber_positive (h : Number.classify x = .finite b) (hpos : 0 < b.significand)
    {body rest : List Char} (hrest : Ends rest)
    (hbody : let digits := Nat.toDigits 10 b.shortest.digits
      let place := b.shortest.exponent + digits.length - 1
      body = Number.positional digits (place + 1) ∨
        ∃ width, body = Number.scientific width digits place) :
    readNumber (signText b.negative ++ (body ++ rest)) = .ok ((.float x : Json τ), rest) := by
  have hfloat := (Number.classify_finite h).1
  obtain ⟨hlow, hhigh⟩ := Number.shortest_place_bounds hfloat hpos
  have hdigits := (Number.shortest_contains hfloat hpos).1
  have hvalue := Number.digitsValue_toDigits b.shortest.digits
  have hne := Nat.toDigits_ne_nil (b := 10) (n := b.shortest.digits)
  have hhead := Number.toDigits_head b.shortest.digits hdigits.ne'
  have hall : ∀ c ∈ Nat.toDigits 10 b.shortest.digits, isDigit c = true :=
    fun _ => Number.toDigits_isDigit
  dsimp only at hbody
  generalize Nat.toDigits 10 b.shortest.digits = digits at *
  -- In either notation what is read has the value of the shortest decimal, which makes the float.
  obtain rfl | ⟨width, rfl⟩ := hbody
  · obtain ⟨whole, fraction, htext, hwhole, hfraction, hallFraction, hsame⟩ :=
      positional_parts hne hhead hall (b.shortest.exponent + digits.length - 1 + 1)
    have hread := readNumber_parts τ b.negative whole fraction rest hwhole hallFraction
      fun c hc => ⟨(hrest c hc).1, (hrest c hc).2.1⟩
    have hfloat : Number.assemble b.negative whole fraction 0 = x := by
      refine assemble_eq h hpos (by decide) (by decide) ?_
      rw [zero_sub, hsame, hvalue, Number.Decimal.value]
      congr 2
      ring
    rw [htext, List.append_assoc, hread, exponentPart?_of_ends hrest, Option.elim_none, hfloat]
    simp [hfraction]
  · generalize hplace : b.shortest.exponent + digits.length - 1 = place at *
    obtain ⟨whole, fraction, htext, hwhole, hallFraction, hsame, hlength⟩ :=
      scientific_parts hne hhead hall width place
    obtain ⟨hpadded, hallPadded, hexponent⟩ := padded_spec width place.natAbs
    have hread := readNumber_parts τ b.negative whole fraction
      ('e' :: (if place < 0 then '-' else '+') :: (Number.padded width place.natAbs ++ rest))
      hwhole hallFraction (by simp [isDigit])
    have hsigned : (if decide (place < 0) = true then -(place.natAbs : Int) else place.natAbs) =
        place := by
      by_cases hneg : place < 0 <;> simp only [hneg, decide_true, decide_false, if_true,
        Bool.false_eq_true, if_false] <;> omega
    have hfloat : Number.assemble b.negative whole fraction place = x := by
      refine assemble_eq h hpos (by simp [Number.exponentBound]; omega)
        (by simp [Number.exponentBound]; omega) ?_
      rw [hsame, hvalue, Number.Decimal.value]
      congr 2
      omega
    rw [exponentPart?_write hpadded hallPadded hrest, Option.elim_some, hexponent, hsigned,
      hfloat] at hread
    rw [htext, List.append_assoc, List.append_assoc, List.cons_append, List.cons_append, hread]
    simp

/-- A finite float is read as itself. -/
theorem readNumber_finite (h : Number.classify x = .finite b) {rest : List Char}
    (hrest : Ends rest) :
    readNumber (Number.jsonFloats.finite b ++ rest) = .ok ((.float x : Json τ), rest) := by
  have hsign (body : List Char) :
      (if b.negative then '-' :: body else body) = signText b.negative ++ body := by
    cases b.negative <;> rfl
  unfold Number.FloatLayout.finite
  rw [hsign, List.append_assoc]
  split
  · rename_i hzero
    have hbits : b.bits = 0 := by
      have := (Number.classify_finite h).1.normal (by rw [hzero]; decide)
      simp [Number.Binary.bits, hzero, this]
    have hx := Number.signed_ofBits h
    rw [hbits] at hx
    have hread := readNumber_parts τ b.negative ['0'] ['0'] rest
      (.inl rfl) (by simp [isDigit]) fun c hc => ⟨(hrest c hc).1, (hrest c hc).2.1⟩
    rw [exponentPart?_of_ends hrest] at hread
    exact hread.trans (by rw [← hx]; rfl)
  · rename_i hpos
    refine readNumber_positive h (Nat.pos_of_ne_zero hpos) hrest ?_
    dsimp only
    split
    · exact .inl rfl
    · exact .inr ⟨_, rfl⟩

end Floats

/-! ### Numbers among other values -/

/-- What is read as a number begins with its sign, or with a digit. -/
theorem readNumber_begins {cs : List Char} {r : Json τ × List Char} (h : readNumber cs = .ok r) :
    ∃ negative c more, cs = signText negative ++ c :: more ∧ isDigit c = true := by
  have hbody {body : List Char} (hne : (wholeDigits body).isEmpty ≠ true) :
      ∃ c more, body = c :: more ∧ isDigit c = true := by
    unfold wholeDigits at hne
    split at hne
    · exact ⟨'0', _, rfl, rfl⟩
    · cases body with
      | nil => exact absurd rfl hne
      | cons c more =>
          refine ⟨c, more, rfl, ?_⟩
          by_contra hc
          simp [hc] at hne
  unfold readNumber at h
  split at h
  rename_i negative body hsign
  by_cases hempty : (wholeDigits body).isEmpty = true
  · simp [hempty] at h
  · obtain ⟨c, more, rfl, hc⟩ := hbody hempty
    split at hsign <;> cases hsign
    · exact ⟨true, c, more, rfl, hc⟩
    · exact ⟨false, c, more, rfl, hc⟩

/-- No word begins as a number does. -/
theorem readWord?_of_digit {c : Char} (h : isDigit c = true) (negative : Bool) (more : List Char) :
    readWord? (signText negative ++ c :: more) = (none : Option (Json τ × List Char)) := by
  have hne : ∀ d, isDigit d = false → d ≠ c := by
    rintro d hd rfl
    simp [h] at hd
  have hfirst := hne 'I' (by decide)
  cases negative with
  | true => simp [signText, readWord?, words, hfirst]
  | false => simp [signText, readWord?, words, hfirst, hne 'n' (by decide), hne 't' (by decide),
      hne 'f' (by decide), hne 'N' (by decide), hne '-' (by decide)]

variable [Spelled τ] [DecidableEq τ]

/-- A value that opens neither a string nor brackets is a word … -/
theorem readValue_word {fuel depth : Nat} {c : Char} {cs : List Char} {r : Json τ × List Char}
    (hquote : c ≠ '"') (hlist : c ≠ '[') (hobject : c ≠ '\x7b')
    (hword : readWord? (c :: cs) = some r) : readValue (fuel + 1) depth (c :: cs) = .ok r := by
  rw [readValue.eq_def]
  split <;> simp_all

/-- … or a number. -/
theorem readValue_number {fuel depth : Nat} {cs : List Char} {r : Json τ × List Char}
    (h : readNumber cs = .ok r) : readValue (fuel + 1) depth cs = .ok r := by
  obtain ⟨negative, c, more, rfl, hc⟩ := readNumber_begins h
  have hword : readWord? _ = (none : Option (Json τ × List Char)) :=
    readWord?_of_digit hc negative more
  have hne : ∀ d, isDigit d = false → c ≠ d := by
    rintro d hd rfl
    simp [hc] at hd
  have hquote := hne '"' (by decide)
  have hlist := hne '[' (by decide)
  have hobject := hne '\x7b' (by decide)
  rw [readValue.eq_def]
  cases negative <;> simp only [signText, if_true, Bool.false_eq_true, if_false, List.cons_append,
    List.nil_append] at hword h ⊢ <;> split <;> simp_all

/-- A written float is read as itself, those without digits by their names. -/
theorem readValue_float (x : Float) (fuel depth : Nat) {rest : List Char} (hrest : Ends rest) :
    readValue (fuel + 1) depth ((Number.jsonFloats.render x).toList ++ rest) =
      .ok ((.float x : Json τ), rest) := by
  unfold Number.FloatLayout.render
  split
  · rename_i h
    rw [Number.classify_nan h]
    change readValue _ _ ('N' :: 'a' :: 'N' :: rest) = _
    exact readValue_word (by decide) (by decide) (by decide) (by simp [readWord?, words])
  · rename_i h
    rw [Number.classify_infinite h, Number.signed, if_neg Bool.false_ne_true]
    change readValue _ _ ('I' :: 'n' :: 'f' :: 'i' :: 'n' :: 'i' :: 't' :: 'y' :: rest) = _
    exact readValue_word (by decide) (by decide) (by decide) (by simp [readWord?, words])
  · rename_i h
    rw [Number.classify_infinite h, Number.signed, if_pos rfl, String.toList_append]
    change readValue _ _ ('-' :: 'I' :: 'n' :: 'f' :: 'i' :: 'n' :: 'i' :: 't' :: 'y' :: rest) = _
    exact readValue_word (by decide) (by decide) (by decide) (by simp [readWord?, words])
  · rename_i b h
    rw [String.toList_ofList]
    exact readValue_number (readNumber_finite h hrest)

end Json

end BlockWorkbench
