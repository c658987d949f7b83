import Mathlib
import BlockWorkbench.Json.Reader
import BlockWorkbench.Proofs.Outcome

/-!
The characters of a JSON text. A reader passes no control character but the four blanks, so that a
text with any other of them is no JSON, whatever stands around it.
-/

namespace BlockWorkbench.Json

variable {τ : Type}

/-- Whether a character may stand in a JSON text. -/
def isLegal (c : Char) : Bool := 0x20 ≤ c.toNat || isSpace c

/-- Whether a reader that leaves `rest` of a text passed legal characters only. -/
def Passes (cs rest : List Char) : Prop := ∀ c ∈ cs, isLegal c = true ∨ c ∈ rest

namespace Passes

variable {cs more rest : List Char}

theorem refl (cs : List Char) : Passes cs cs := fun _ hc => .inr hc

theorem trans (h : Passes cs more) (hmore : Passes more rest) : Passes cs rest := fun c hc =>
  (h c hc).elim .inl (hmore c)

theorem cons {c : Char} (hc : isLegal c = true) (h : Passes cs rest) : Passes (c :: cs) rest :=
  List.forall_mem_cons.mpr ⟨.inl hc, h⟩

theorem append {used : List Char} (h : ∀ c ∈ used, isLegal c = true) :
    Passes (used ++ rest) rest := by
  intro c hc
  exact (List.mem_append.mp hc).imp_left (h c)

theorem drop {used : List Char} (hused : used <+: cs) (h : ∀ c ∈ used, isLegal c = true) :
    Passes cs (cs.drop used.length) := by
  obtain ⟨rest, rfl⟩ := hused
  simpa using append h

end Passes

theorem isLegal_of_isSpace {c : Char} (h : isSpace c = true) : isLegal c = true := by
  simp [isLegal, h]

theorem isLegal_of_isDigit {c : Char} (h : Number.isDigit c = true) : isLegal c = true := by
  simp only [Number.isDigit, Bool.and_eq_true, decide_eq_true_eq, Char.le_def,
    UInt32.le_iff_toNat_le] at h
  have hzero : ('0' : Char).val.toNat = 0x30 := rfl
  simp only [isLegal, Bool.or_eq_true, decide_eq_true_eq, Char.toNat]
  omega

theorem isLegal_of_hexValue? {c : Char} {n : Nat} (h : Text.hexValue? c = some n) :
    isLegal c = true := by
  by_contra hc
  have hlow : c.toNat < 0x20 := by
    simp only [isLegal, Bool.or_eq_true, decide_eq_true_eq, not_or, not_le] at hc
    exact hc.1
  have hnone : ∀ n < 0x20, Text.hexValue? (Char.ofNat n) = none := by decide
  rw [← Char.ofNat_toNat c, hnone _ hlow] at h
  cases h

theorem isLegal_of_plainEscape? {c d : Char} (h : plainEscape? c = some d) : isLegal c = true := by
  unfold plainEscape? at h
  split at h <;> first | rfl | cases h

theorem skipSpace_passes (cs : List Char) : Passes cs (skipSpace cs) := by
  have h : Passes (cs.takeWhile isSpace ++ cs.dropWhile isSpace) (skipSpace cs) :=
    .append fun c hc => isLegal_of_isSpace (List.mem_takeWhile_imp hc)
  rwa [List.takeWhile_append_dropWhile] at h

theorem hexNumber?_legal {cs : List Char} {n : Nat} (h : Text.hexNumber? cs = some n) :
    ∀ c ∈ cs, isLegal c = true := by
  have hfold : ∀ (cs : List Char) (m n : Nat),
      cs.foldlM (fun n c => (Text.hexValue? c).map (n * 16 + ·)) m = some n →
      ∀ c ∈ cs, isLegal c = true := by
    intro cs
    induction cs with
    | nil => simp
    | cons c cs ih =>
        intro m n h
        rw [List.foldlM_cons, Option.bind_eq_bind, Option.bind_eq_some_iff] at h
        obtain ⟨m', hm', h⟩ := h
        obtain ⟨d, hd, -⟩ := Option.map_eq_some_iff.mp hm'
        exact List.forall_mem_cons.mpr ⟨isLegal_of_hexValue? hd, ih m' n h⟩
  exact hfold cs 0 n h

theorem readPoints_passes {start : Nat} {cs rest : List Char} {ns : List Nat}
    (h : readPoints start cs = .ok (ns, rest)) : Passes cs rest := by
  fun_induction readPoints start cs generalizing ns rest with
  | case1 => cases h
  | case2 more =>
      cases h
      exact .cons rfl (.refl _)
  | case3 => cases h
  | case4 a b c d e more n hhex ih =>
      obtain ⟨⟨ns', rest'⟩, hread, hmap⟩ := map_eq_ok.mp h
      cases hmap
      have hlegal := hexNumber?_legal hhex
      simp only [List.forall_mem_cons] at hlegal
      obtain ⟨ha, hb, hc, hd, -⟩ := hlegal
      exact .cons rfl (.cons rfl (.cons ha (.cons hb (.cons hc (.cons hd (ih hread))))))
  | case5 => cases h
  | case6 => cases h
  | case7 c more hc d hescape ih =>
      obtain ⟨⟨ns', rest'⟩, hread, hmap⟩ := map_eq_ok.mp h
      cases hmap
      exact .cons rfl (.cons (isLegal_of_plainEscape? hescape) (ih hread))
  | case8 => cases h
  | case9 => cases h
  | case10 c more _ _ _ _ hc ih =>
      obtain ⟨⟨ns', rest'⟩, hread, hmap⟩ := map_eq_ok.mp h
      cases hmap
      exact .cons (by simp [isLegal, Nat.le_of_not_lt hc]) (ih hread)

theorem readString_passes [Spelled τ] {cs rest : List Char} {s : τ}
    (h : readString cs = .ok (s, rest)) :
    Passes cs rest := by
  obtain ⟨⟨ns, more⟩, hread, hmap⟩ := map_eq_ok.mp h
  cases hmap
  exact readPoints_passes hread

theorem wholeDigits_begins (cs : List Char) : wholeDigits cs <+: cs := by
  unfold wholeDigits
  split
  · simp
  · exact List.takeWhile_prefix _

theorem wholeDigits_legal {cs : List Char} : ∀ c ∈ wholeDigits cs, isLegal c = true := by
  unfold wholeDigits
  split
  · simp [isLegal]
  · exact fun c hc => isLegal_of_isDigit (List.mem_takeWhile_imp hc)

/-- A fraction that is there takes its point with it. -/
theorem fraction_passes (cs : List Char) :
    Passes cs (if (fractionDigits cs).isEmpty then cs
      else cs.drop ((fractionDigits cs).length + 1)) := by
  unfold fractionDigits
  split
  · rename_i more
    split_ifs
    · exact .refl _
    · rw [List.drop_succ_cons]
      exact .cons rfl (.drop (List.takeWhile_prefix _) fun c hc =>
        isLegal_of_isDigit (List.mem_takeWhile_imp hc))
  · exact .refl _

theorem splitSign_suffix (cs : List Char) : (Number.splitSign cs).2 <:+ cs := by
  unfold Number.splitSign
  split
  · exact List.suffix_cons _ _
  · exact List.suffix_cons _ _
  · exact List.suffix_refl _

theorem splitSign_passes (cs : List Char) : Passes cs (Number.splitSign cs).2 := by
  unfold Number.splitSign
  split
  · exact .cons rfl (.refl _)
  · exact .cons rfl (.refl _)
  · exact .refl _

theorem exponent_passes {cs digits : List Char} {negative : Bool} {size : Nat}
    (h : exponentPart? cs = some (negative, digits, size)) : Passes cs (cs.drop size) := by
  unfold exponentPart? at h
  split at h
  · rename_i c more
    split at h
    · rename_i hc
      have hlegal : isLegal c = true := by
        simp only [Bool.or_eq_true, beq_iff_eq] at hc
        obtain rfl | rfl := hc <;> rfl
      have hbody := List.suffix_iff_eq_drop.mp (splitSign_suffix more)
      generalize hsign : Number.splitSign more = signed at h hbody
      have hpasses : Passes more signed.2 := hsign ▸ splitSign_passes more
      simp only at h
      split at h
      · cases h
      · simp only [Option.some.injEq, Prod.mk.injEq] at h
        obtain ⟨-, -, rfl⟩ := h
        have hdrop : (c :: more).drop (1 + (more.length - signed.2.length) +
            (signed.2.takeWhile Number.isDigit).length) =
              signed.2.drop (signed.2.takeWhile Number.isDigit).length := by
          rw [Nat.add_assoc, Nat.add_comm 1, List.drop_succ_cons, ← List.drop_drop, ← hbody]
        rw [hdrop]
        exact .cons hlegal (hpasses.trans (.drop (List.takeWhile_prefix _) fun c hc =>
          isLegal_of_isDigit (List.mem_takeWhile_imp hc)))
    · cases h
  · cases h

theorem readNumber_passes {cs rest : List Char} {v : Json τ} (h : readNumber cs = .ok (v, rest)) :
    Passes cs rest := by
  unfold readNumber at h
  split at h
  rename_i negative body hsign
  have hbody : Passes cs body := by
    split at hsign <;> cases hsign
    · exact .cons rfl (.refl _)
    · exact .refl _
  have hwhole : Passes cs (body.drop (wholeDigits body).length) :=
    hbody.trans (.drop (wholeDigits_begins body) wholeDigits_legal)
  have hfraction := hwhole.trans (fraction_passes _)
  dsimp only at h
  split at h
  · cases h
  · split at h
    · rename_i hexponent
      cases h
      exact hfraction.trans (exponent_passes hexponent)
    · split at h
      · cases h
        exact hfraction
      · split at h
        · cases h
        · cases h
          exact hfraction

theorem readWord?_passes {cs rest : List Char} {v : Json τ} (h : readWord? cs = some (v, rest)) :
    Passes cs rest := by
  obtain ⟨⟨word, value⟩, hword, h⟩ := List.exists_of_findSome?_eq_some h
  simp only [Option.ite_none_right_eq_some, List.isPrefixOf_iff_prefix, Option.some.injEq,
    Prod.mk.injEq] at h
  obtain ⟨hused, -, rfl⟩ := h
  have hlegal : ∀ w ∈ (words : List (List Char × Json τ)), ∀ c ∈ w.1, isLegal c = true := by
    simp [words, isLegal]
  exact .drop hused (hlegal _ hword)

/-- What the readers of values pass with some fuel. -/
structure ReadersPass (τ : Type) [Spelled τ] [DecidableEq τ] (fuel : Nat) : Prop where
  value {depth : Nat} {cs rest : List Char} {v : Json τ} :
    readValue fuel depth cs = .ok (v, rest) → Passes cs rest
  items {depth : Nat} {cs rest : List Char} {vs : List (Json τ)} :
    readItems fuel depth cs = .ok (vs, rest) → Passes cs rest
  fields {depth : Nat} {cs rest : List Char} {before fs : List (τ × Json τ)} :
    readFields fuel depth before cs = .ok (fs, rest) → Passes cs rest

namespace ReadersPass

variable [Spelled τ] [DecidableEq τ] {fuel : Nat}

theorem valueStep (ih : ReadersPass τ fuel) {depth : Nat} {cs rest : List Char} {v : Json τ}
    (h : readValue (fuel + 1) depth cs = .ok (v, rest)) : Passes cs rest := by
  simp only [readValue] at h
  split at h
  · obtain ⟨⟨s, more⟩, hread, hmap⟩ := map_eq_ok.mp h
    cases hmap
    exact .cons rfl (readString_passes hread)
  · rename_i more
    split at h
    · cases h
    · have hspace := skipSpace_passes more
      split at h
      · rename_i hempty
        cases h
        rw [hempty] at hspace
        exact .cons rfl (hspace.trans (.cons rfl (.refl _)))
      · obtain ⟨⟨vs, more⟩, hread, hmap⟩ := map_eq_ok.mp h
        cases hmap
        exact .cons rfl (hspace.trans (ih.items hread))
  · rename_i more
    split at h
    · cases h
    · have hspace := skipSpace_passes more
      split at h
      · rename_i hempty
        cases h
        rw [hempty] at hspace
        exact .cons rfl (hspace.trans (.cons rfl (.refl _)))
      · obtain ⟨⟨fs, more⟩, hread, hmap⟩ := map_eq_ok.mp h
        cases hmap
        exact .cons rfl (hspace.trans (ih.fields hread))
  · split at h
    · rename_i r hword
      cases h
      exact readWord?_passes hword
    · exact readNumber_passes h

theorem itemsStep (ih : ReadersPass τ fuel) {depth : Nat} {cs rest : List Char} {vs : List (Json τ)}
    (h : readItems (fuel + 1) depth cs = .ok (vs, rest)) : Passes cs rest := by
  simp only [readItems, bind_eq_ok, Prod.exists] at h
  obtain ⟨v, more, hread, h⟩ := h
  have hvalue := (ih.value hread).trans (skipSpace_passes more)
  split at h
  · rename_i hclose
    cases h
    rw [hclose] at hvalue
    exact hvalue.trans (.cons rfl (.refl _))
  · rename_i behind hcomma
    simp only [bind_eq_ok, Prod.exists] at h
    obtain ⟨vs', after, hitems, h⟩ := h
    cases h
    rw [hcomma] at hvalue
    exact hvalue.trans (.cons rfl ((skipSpace_passes behind).trans (ih.items hitems)))
  · cases h

theorem fieldsStep (ih : ReadersPass τ fuel) {depth : Nat} {cs rest : List Char}
    {before fs : List (τ × Json τ)}
    (h : readFields (fuel + 1) depth before cs = .ok (fs, rest)) : Passes cs rest := by
  simp only [readFields] at h
  split at h
  · simp only [bind_eq_ok, Prod.exists] at h
    obtain ⟨name, afterName, hname, h⟩ := h
    have hcolon := (readString_passes hname).trans (skipSpace_passes afterName)
    split at h
    · rename_i behindColon heq
      rw [heq] at hcolon
      simp only [bind_eq_ok, Prod.exists] at h
      obtain ⟨v, afterValue, hread, h⟩ := h
      have hvalue := (hcolon.trans (.cons rfl (skipSpace_passes behindColon))).trans
        ((ih.value hread).trans (skipSpace_passes afterValue))
      split at h
      · rename_i hclose
        cases h
        rw [hclose] at hvalue
        exact .cons rfl (hvalue.trans (.cons rfl (.refl _)))
      · rename_i behindComma hcomma
        rw [hcomma] at hvalue
        exact .cons rfl (hvalue.trans
          (.cons rfl ((skipSpace_passes behindComma).trans (ih.fields h))))
      · cases h
    · cases h
  · cases h

end ReadersPass

variable [Spelled τ] [DecidableEq τ]

theorem readersPass (fuel : Nat) : ReadersPass τ fuel := by
  induction fuel with
  | zero => constructor <;> intros <;> rename_i h <;> cases h
  | succ fuel ih => exact ⟨ih.valueStep, ih.itemsStep, ih.fieldsStep⟩

/-- Every character of a text that is read as JSON is one that may stand in it. -/
theorem isLegal_of_read {text : String} {v : Json τ} (h : read text = .ok v) :
    ∀ c ∈ text.toList, isLegal c = true := by
  unfold read readAll at h
  split at h
  · cases h
  · simp only [bind_eq_ok, Prod.exists] at h
    obtain ⟨v', rest, hread, h⟩ := h
    split at h
    · rename_i hend
      have hpasses := (skipSpace_passes text.toList).trans
        (((readersPass _).value hread).trans (skipSpace_passes rest))
      rw [hend] at hpasses
      intro c hc
      simpa using hpasses c hc
    · cases h

end BlockWorkbench.Json
