import BlockWorkbench.Proofs.Json.Strings
import BlockWorkbench.Text.LowerCase
import BlockWorkbench.Text.Search
import BlockWorkbench.Text.UpperCase

/-!
What is found in lower case. Only a capital sigma looks at what stands around it, so a text without
one is found in lower case wherever it stood. Lower case keeps what is ASCII apart from what is not,
but for the Kelvin sign, which becomes a plain letter.
-/

namespace BlockWorkbench

namespace Text

/-- The lower case of a character that does not look at what stands around it. -/
def lowerAlone (c : Char) : List Char :=
  if c = '\u0130' then ['i', '\u0307'] else [lowerChar c]

theorem lowerBetween_of_ne {c : Char} (h : c ≠ '\u03a3') (before rest : List Char) :
    lowerBetween before rest c = lowerAlone c := by
  rw [lowerBetween, if_neg h, lowerAlone]

theorem lowerFrom_of_notMem {cs : List Char} (h : '\u03a3' ∉ cs) (before : List Char) :
    lowerFrom before cs = cs.flatMap lowerAlone := by
  induction cs generalizing before with
  | nil => rfl
  | cons c rest ih =>
      obtain ⟨hne, hrest⟩ := List.ne_and_not_mem_of_not_mem_cons h
      rw [lowerFrom, lowerBetween_of_ne hne.symm, ih hrest, List.flatMap_cons]

/-! ### What is ASCII -/

/-- Whether all characters are ASCII. -/
def Ascii (cs : List Char) : Prop := ∀ c ∈ cs, c.toNat < 0x80

theorem lowerAlone_of_ascii {c : Char} (h : c.toNat < 0x80) : lowerAlone c = [c.toLower] := by
  rw [lowerAlone, if_neg, lowerChar, if_pos h]
  rintro rfl
  exact absurd h (by decide)

theorem notMem_of_ascii {cs : List Char} (h : Ascii cs) : '\u03a3' ∉ cs := fun hmem =>
  absurd (h _ hmem) (by decide)

theorem lowerFrom_of_ascii {cs : List Char} (h : Ascii cs) (before : List Char) :
    lowerFrom before cs = cs.map Char.toLower := by
  rw [lowerFrom_of_notMem (notMem_of_ascii h), List.map_eq_flatMap]
  exact List.flatMap_congr fun c hc => lowerAlone_of_ascii (h c hc)

/-- The cases of ASCII letters. -/
theorem toLower_spec {c : Char} (h : c.toNat < 0x80) :
    c.toLower.toNat < 0x80 ∧ c.toUpper.toNat < 0x80 ∧ c.toLower.toLower = c.toLower ∧
      c.toUpper.toLower = c.toLower := by
  have hall : ∀ n < 0x80, (Char.ofNat n).toLower.toNat < 0x80 ∧
      (Char.ofNat n).toUpper.toNat < 0x80 ∧
      (Char.ofNat n).toLower.toLower = (Char.ofNat n).toLower ∧
      (Char.ofNat n).toUpper.toLower = (Char.ofNat n).toLower := by decide
  simpa using hall c.toNat h

theorem ascii_map_toLower {cs : List Char} (h : Ascii cs) : Ascii (cs.map Char.toLower) := by
  simpa [Ascii] using fun c hc => (toLower_spec (h c hc)).1

theorem toList_lower_of_ascii {s : String} (h : Ascii s.toList) :
    (lower s).toList = s.toList.map Char.toLower := by
  rw [lower, String.toList_ofList, lowerFrom_of_ascii h]

theorem toList_upper_of_ascii {s : String} (h : Ascii s.toList) :
    (upper s).toList = s.toList.map Char.toUpper := by
  rw [upper, String.toList_ofList, List.map_eq_flatMap]
  exact List.flatMap_congr fun c hc => by rw [upperChar, if_pos (h c hc)]

theorem lower_lower_of_ascii {s : String} (h : Ascii s.toList) : lower (lower s) = lower s := by
  have hlower : Ascii (lower s).toList := toList_lower_of_ascii h ▸ ascii_map_toLower h
  apply String.toList_injective
  rw [toList_lower_of_ascii hlower, toList_lower_of_ascii h, List.map_map]
  exact List.map_congr_left fun c hc => (toLower_spec (h c hc)).2.2.1

theorem lower_upper_of_ascii {s : String} (h : Ascii s.toList) : lower (upper s) = lower s := by
  have hupper : Ascii (upper s).toList := by
    rw [toList_upper_of_ascii h]
    simpa [Ascii] using fun c hc => (toLower_spec (h c hc)).2.1
  apply String.toList_injective
  rw [toList_lower_of_ascii hupper, toList_lower_of_ascii h, toList_upper_of_ascii h, List.map_map]
  exact List.map_congr_left fun c hc => (toLower_spec (h c hc)).2.2.2

/-! ### What is not -/

/-- Runs beyond ASCII stay there and among the characters, except for that of the Kelvin sign. -/
theorem lowerRuns_spec : ∀ r ∈ lowerRuns.toList,
    (r.1 = 0x212a ∧ r.2.1 = 0x212a ∧ r.2.2.2 = -8383) ∨
      (0x80 ≤ r.1 + r.2.2.2 ∧ (r.2.1 + r.2.2.2 < 0xd800 ∨
        0xe000 ≤ r.1 + r.2.2.2 ∧ r.2.1 + r.2.2.2 < 0x110000)) := by
  decide +kernel

theorem toNat_ofNat {n : Nat} (h : n.isValidChar) : (Char.ofNat n).toNat = n := by
  rw [Char.ofNat, dif_pos h]
  rfl

/-- What is not ASCII stays so in lower case, except for the Kelvin sign. -/
theorem le_toNat_lowerChar {c : Char} (h : 0x80 ≤ c.toNat) (hkelvin : c ≠ '\u212a') :
    0x80 ≤ (lowerChar c).toNat := by
  rw [lowerChar, if_neg (Nat.not_lt.mpr h)]
  split
  · rename_i first last step shift hfind
    have hmem := Array.mem_def.mp (Array.mem_of_find?_eq_some hfind)
    have hrange := Array.find?_some hfind
    simp only [Bool.and_eq_true, decide_eq_true_eq] at hrange
    obtain ⟨hfirst, hlast, -⟩ | ⟨hle, hvalid⟩ := lowerRuns_spec _ hmem
    · have hc : c.toNat = 0x212a := by
        simp only at hfirst hlast
        omega
      exact absurd (Char.toNat_inj.mp (hc.trans (by decide))) hkelvin
    · simp only at hle hvalid
      rw [toNat_ofNat (by rw [Nat.isValidChar]; omega)]
      omega
  · exact h

/-- If the lower case of a text is ASCII, so is the text, except for Kelvin signs. -/
theorem ascii_or_kelvin {cs : List Char} {before : List Char} (h : Ascii (lowerFrom before cs)) :
    ∀ c ∈ cs, c.toNat < 0x80 ∨ c = '\u212a' := by
  induction cs generalizing before with
  | nil => simp
  | cons c rest ih =>
      rw [lowerFrom, lowerBetween, Ascii, List.forall_mem_append] at h
      refine List.forall_mem_cons.mpr ⟨?_, ih h.2⟩
      by_contra hc
      rw [not_or, not_lt] at hc
      split_ifs at h
      · exact absurd (h.1 '\u03c2' (by simp)) (by decide)
      · exact absurd (h.1 '\u03c3' (by simp)) (by decide)
      · exact absurd (h.1 '\u0307' (by simp)) (by decide)
      · exact absurd (h.1 _ (by simp)) (Nat.not_lt.mpr (le_toNat_lowerChar hc.1 hc.2))

end Text

/-! ### Texts with halves of pairs -/

namespace Points

theorem front_ofString (s : String) : (ofString s).front = s.toList := by
  rw [front, ofString, List.takeWhile_eq_self_iff.mpr, List.filterMap_map]
  · simp
  · intro p hp
    obtain ⟨c, -, rfl⟩ := List.mem_map.mp hp
    simp [CodePoint.isHalf]

/-- A string has the same lower case however it is spelled. -/
theorem lower_ofString (s : String) : (ofString s).lower = ofString (Text.lower s) := by
  have hfrom (before cs : List Char) : lowerFrom before (cs.map .ofChar) =
      (Text.lowerFrom before cs).map .ofChar := by
    induction cs generalizing before with
    | nil => rfl
    | cons c rest ih =>
        have hfront := front_ofString (String.ofList rest)
        rw [ofString, String.toList_ofList] at hfront
        simp only [List.map_cons, lowerFrom, CodePoint.char?_ofChar, hfront, ih, Text.lowerFrom,
          List.map_append]
  rw [lower, Text.lower, ofString, ofString, String.toList_ofList, hfrom]

theorem upper_ofString (s : String) : (ofString s).upper = ofString (Text.upper s) := by
  simp [upper, Text.upper, ofString, List.flatMap_map, List.map_flatMap]

/-- The lower case of a code point that does not look at what stands around it. -/
def lowerAlone (p : CodePoint) : Points :=
  match p.char? with
  | some c => (Text.lowerAlone c).map .ofChar
  | none => [p]

/-- What a text without capital sigma adds to the lower case does not depend on what stands around
it. -/
theorem lowerFrom_append_of_notMem {part : Points} (h : .ofChar '\u03a3' ∉ part)
    (before : List Char) (rest : Points) : ∃ behind, lowerFrom before (part ++ rest) =
      part.flatMap lowerAlone ++ lowerFrom behind rest := by
  induction part generalizing before with
  | nil => exact ⟨before, rfl⟩
  | cons p part ih =>
      obtain ⟨hne, hpart⟩ := List.ne_and_not_mem_of_not_mem_cons h
      simp only [List.cons_append, lowerFrom, List.flatMap_cons, lowerAlone, List.append_assoc]
      cases hp : p.char? with
      | some c =>
          have hc : c ≠ '\u03a3' := by
            rintro rfl
            exact hne (CodePoint.ofChar_char? hp)
          obtain ⟨behind, hrest⟩ := ih hpart (c :: before)
          exact ⟨behind, by simp only [hrest, Text.lowerBetween_of_ne hc]⟩
      | none =>
          obtain ⟨behind, hrest⟩ := ih hpart []
          exact ⟨behind, by rw [hrest]; rfl⟩

theorem lower_of_notMem {part : Points} (h : .ofChar '\u03a3' ∉ part) :
    part.lower = part.flatMap lowerAlone := by
  obtain ⟨behind, hpart⟩ := lowerFrom_append_of_notMem h [] []
  simpa [lower, lowerFrom] using hpart

/-- Halves of pairs stay as they are. -/
theorem mem_lower_of_char? {p : CodePoint} (hp : p.char? = none) {t : Points} (h : p ∈ t) :
    p ∈ t.lower := by
  have hfrom (before : List Char) : p ∈ lowerFrom before t := by
    induction t generalizing before with
    | nil => cases h
    | cons first rest ih =>
        rw [lowerFrom]
        obtain rfl | h := List.mem_cons.mp h
        · rw [hp]
          exact List.mem_cons_self
        · cases first.char? with
          | some c => exact List.mem_append_right _ (ih h _)
          | none => exact List.mem_cons_of_mem _ (ih h _)
  exact hfrom []

/-- The lower case of a text ends with that of its end, seen behind some characters. -/
theorem lowerFrom_suffix (before : List Char) (first rest : Points) :
    ∃ behind, lowerFrom behind rest <:+ lowerFrom before (first ++ rest) := by
  induction first generalizing before with
  | nil => exact ⟨before, List.suffix_rfl⟩
  | cons p first ih =>
      rw [List.cons_append, lowerFrom]
      cases p.char? with
      | some c =>
          obtain ⟨behind, h⟩ := ih (c :: before)
          exact ⟨behind, h.trans (List.suffix_append _ _)⟩
      | none =>
          obtain ⟨behind, h⟩ := ih []
          exact ⟨behind, h.trans (List.suffix_cons _ _)⟩

/-- A text without capital sigma is found in lower case wherever it stands. -/
theorem occursIn_lower {t part : Points} (hsigma : .ofChar '\u03a3' ∉ part) (h : part <:+: t) :
    Text.occursIn part.lower t.lower = true := by
  obtain ⟨first, rest, rfl⟩ := h
  obtain ⟨before, hsuffix⟩ := lowerFrom_suffix [] first (part ++ rest)
  obtain ⟨behind, hpart⟩ := lowerFrom_append_of_notMem hsigma before rest
  rw [hpart, ← lower_of_notMem hsigma] at hsuffix
  rw [Text.occursIn_iff, List.append_assoc]
  exact (List.prefix_append _ _).isInfix.trans hsuffix.isInfix

/-- Strings stand in each other as their code points do. -/
theorem ofString_infix {part s : String} (h : ofString part <:+: ofString s) :
    part.toList <:+: s.toList := by
  have hchars := h.filterMap CodePoint.char?
  simpa [ofString, List.filterMap_map, Function.comp_def] using hchars

/-- Whether all code points are ASCII. -/
def Ascii (t : Points) : Prop := ∀ p ∈ t, p.val < 0x80

theorem ascii_ofString {s : String} : (ofString s).Ascii ↔ Text.Ascii s.toList := by
  simp [Ascii, Text.Ascii, ofString, CodePoint.val_ofChar]

theorem Ascii.sigma_notMem {t : Points} (h : t.Ascii) : .ofChar '\u03a3' ∉ t := fun hmem =>
  absurd (h _ hmem) (by decide)

/-- What is ASCII is a string. -/
theorem Ascii.exists_ofString {t : Points} (h : t.Ascii) :
    ∃ s : String, t = ofString s ∧ Text.Ascii s.toList := by
  have hwhole : t.Whole := fun p hp => by
    have hvalid : p.val.isValidChar := .inl ((h p hp).trans (by decide))
    simp [CodePoint.char?, hvalid]
  obtain ⟨s, rfl⟩ := hwhole.exists_ofString
  exact ⟨s, rfl, ascii_ofString.mp h⟩

end Points

end BlockWorkbench
