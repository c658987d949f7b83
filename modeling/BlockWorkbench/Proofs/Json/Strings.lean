import BlockWorkbench.Json.Reader
import BlockWorkbench.Json.Writer
import BlockWorkbench.Proofs.Outcome

/-!
Texts written and read again. Each character is written as its UTF-16 units or as itself and is
read as one or two numbers; numbers of a pair are joined to the character they came from. Half of
a pair is written as itself and is read as itself, unless it meets its other half.
-/

namespace BlockWorkbench

namespace Text

/-- Four hexadecimal digits are read as the number that they write. -/
theorem hexNumber?_hexDigits (n : Nat) (h : n < 0x10000) : hexNumber? (hexDigits 4 n) = some n := by
  have hvalue : ∀ m, hexValue? (Nat.digitChar (m % 16)) = some (m % 16) :=
    fun m => hexValue?_digitChar (m % 16) (Nat.mod_lt m (by decide))
  simp only [hexNumber?, hexDigits, List.nil_append, List.cons_append, List.foldlM_cons,
    List.foldlM_nil, hvalue, Option.map_some, Option.bind_eq_bind, Option.bind_some,
    Option.pure_def]
  exact congrArg some (by omega)

end Text

namespace CodePoint

theorem val_ofChar (c : Char) : (ofChar c).val = c.toNat := rfl

@[simp] theorem char?_ofChar (c : Char) : (ofChar c).char? = some c := by
  have hvalid : c.toNat.isValidChar := c.valid
  simp [char?, val_ofChar, hvalid, Char.ofNat_toNat]

@[simp] theorem ofChar_inj {c d : Char} : ofChar c = ofChar d ↔ c = d :=
  ⟨fun h => by simpa using congrArg char? h, congrArg ofChar⟩

theorem ofChar_char? {p : CodePoint} {c : Char} (h : p.char? = some c) : ofChar c = p := by
  simp only [char?, Option.ite_none_right_eq_some, Option.some.injEq] at h
  obtain ⟨hvalid, rfl⟩ := h
  apply Fin.ext
  rw [val_ofChar, Char.ofNat, dif_pos hvalid]
  rfl

theorem ofNat_toNat (c : Char) : ofNat c.toNat = ofChar c :=
  Fin.ext (Nat.mod_eq_of_lt (ofChar c).isLt)

/-- Halves of pairs are the units of pairs. -/
theorem isHalf_iff {p : CodePoint} :
    p.isHalf = true ↔ isHighUnit p.val = true ∨ isLowUnit p.val = true := by
  have hlt := p.isLt
  simp only [isHalf, char?, Nat.isValidChar, Option.isNone_iff_eq_none, isHighUnit, isLowUnit,
    Bool.and_eq_true, decide_eq_true_eq]
  split
  · simp
    omega
  · simp
    omega

theorem lt_of_isHalf {p : CodePoint} (h : p.isHalf = true) : p.val < 0x10000 := by
  simp only [isHalf_iff, isHighUnit, isLowUnit, Bool.and_eq_true, decide_eq_true_eq] at h
  omega

theorem isHalf_eq_false {p : CodePoint} {c : Char} (h : p.char? = some c) : p.isHalf = false := by
  rw [isHalf, h]
  rfl

end CodePoint

namespace Json

/-- The numbers that one character is read as. -/
def charUnits (ascii : Bool) (c : Char) : List Nat :=
  if ascii ∧ 0x10000 ≤ c.toNat then
    [0xd800 + (c.toNat - 0x10000) / 0x400, 0xdc00 + (c.toNat - 0x10000) % 0x400]
  else [c.toNat]

theorem charUnits_of_lt {ascii : Bool} {c : Char} (h : ascii = true → c.toNat < 0x10000) :
    charUnits ascii c = [c.toNat] :=
  if_neg fun h' => absurd (h h'.1) (by omega)

theorem charUnits_of_le {c : Char} (h : 0x10000 ≤ c.toNat) :
    charUnits true c =
      [0xd800 + (c.toNat - 0x10000) / 0x400, 0xdc00 + (c.toNat - 0x10000) % 0x400] :=
  if_pos ⟨rfl, h⟩

theorem toNat_lt (c : Char) : c.toNat < 0x110000 := by
  have := c.valid
  simp only [UInt32.isValidChar, Nat.isValidChar] at this
  simp only [Char.toNat]
  omega

/-- No character is half of a pair. -/
theorem not_unit (c : Char) : isHighUnit c.toNat = false ∧ isLowUnit c.toNat = false := by
  have := c.valid
  simp only [UInt32.isValidChar, Nat.isValidChar] at this
  simp only [isHighUnit, isLowUnit, Char.toNat, Bool.and_eq_false_iff, decide_eq_false_iff_not]
  omega

theorem joinUnits_char (c : Char) (ns : List Nat) :
    joinUnits (c.toNat :: ns) = c :: joinUnits ns := by
  obtain ⟨hhigh, hlow⟩ := not_unit c
  cases ns with
  | nil => simp [joinUnits, hhigh, hlow, Char.ofNat_toNat]
  | cons m rest => simp [joinUnits, hhigh, hlow, Char.ofNat_toNat]

/-- A character joins with no code point before or behind it. -/
theorem joinUnits_append_char (ns : List Nat) (c : Char) (ms : List Nat) :
    joinUnits (ns ++ c.toNat :: ms) = joinUnits ns ++ c :: joinUnits ms := by
  induction ns using joinUnits.induct with
  | case1 => exact joinUnits_char c ms
  | case2 n =>
      have hrest := joinUnits_char c ms
      simp [joinUnits, (not_unit c).2, hrest]
  | case3 n m rest hpair ih => simp [joinUnits, hpair, ih]
  | case4 n m rest hpair ih =>
      simp only [List.cons_append] at ih
      simp [joinUnits, hpair, ih]

theorem joinUnits_chars (cs : List Char) (ms : List Nat) :
    joinUnits (cs.map Char.toNat ++ ms) = cs ++ joinUnits ms := by
  induction cs with
  | nil => rfl
  | cons c rest ih => rw [List.map_cons, List.cons_append, joinUnits_char, ih, List.cons_append]

theorem joinUnits_append_chars (ns : List Nat) {cs : List Char} (hcs : cs ≠ []) (ms : List Nat) :
    joinUnits (ns ++ (cs.map Char.toNat ++ ms)) = joinUnits ns ++ (cs ++ joinUnits ms) := by
  obtain ⟨c, rest, rfl⟩ := List.exists_cons_of_ne_nil hcs
  rw [List.map_cons, List.cons_append, joinUnits_append_char, joinUnits_chars, List.cons_append]

theorem joinUnits_pair (c : Char) (h : 0x10000 ≤ c.toNat) (ns : List Nat) :
    joinUnits ((0xd800 + (c.toNat - 0x10000) / 0x400) ::
      (0xdc00 + (c.toNat - 0x10000) % 0x400) :: ns) = c :: joinUnits ns := by
  have hlt := toNat_lt c
  have hhigh : isHighUnit (0xd800 + (c.toNat - 0x10000) / 0x400) = true := by
    simp only [isHighUnit, Bool.and_eq_true, decide_eq_true_eq]
    omega
  have hlow : isLowUnit (0xdc00 + (c.toNat - 0x10000) % 0x400) = true := by
    simp only [isLowUnit, Bool.and_eq_true, decide_eq_true_eq]
    omega
  have hsum : 0x10000 + (0xd800 + (c.toNat - 0x10000) / 0x400 - 0xd800) * 0x400 +
      (0xdc00 + (c.toNat - 0x10000) % 0x400 - 0xdc00) = c.toNat := by
    omega
  simp only [joinUnits, hhigh, hlow, Bool.and_self, if_true, hsum, Char.ofNat_toNat]

/-- Joining the numbers of a text gives the text. -/
theorem joinUnits_flatMap (ascii : Bool) (cs : List Char) :
    joinUnits (cs.flatMap (charUnits ascii)) = cs := by
  induction cs with
  | nil => rfl
  | cons c rest ih =>
      rw [List.flatMap_cons, charUnits]
      split
      · rename_i h
        rw [List.cons_append, List.cons_append, List.nil_append, joinUnits_pair c h.2, ih]
      · rw [List.cons_append, List.nil_append, joinUnits_char, ih]

theorem readPoints_unitEscape (start n : Nat) (h : n < 0x10000) {more : List Char}
    (hmore : more ≠ []) :
    readPoints start (unitEscape n ++ more) =
      (readPoints start more).map fun p => (n :: p.1, p.2) := by
  obtain ⟨e, rest, rfl⟩ := List.exists_cons_of_ne_nil hmore
  have hnumber := Text.hexNumber?_hexDigits n h
  simp only [Text.hexDigits, List.nil_append, List.cons_append] at hnumber
  simp only [unitEscape, Text.hexDigits, List.nil_append, List.cons_append, readPoints, hnumber]

/-- The characters that are written as a backslash and a letter, each with its letter. -/
def letterEscapes : List (Char × Char) :=
  [('"', '"'), ('\\', '\\'), ('\n', 'n'), ('\r', 'r'), ('\t', 't'), ('\x0c', 'f'), ('\x08', 'b')]

theorem letterEscapes_lt {c d : Char} (h : (c, d) ∈ letterEscapes) : c.toNat < 0x10000 := by
  have hlt : ∀ p ∈ letterEscapes, p.1.toNat < 0x10000 := by decide
  exact hlt _ h

/-- What one character of a string may be written as. -/
inductive Escaped (ascii : Bool) (c : Char) : List Char → Prop
  | letter {d : Char} (h : (c, d) ∈ letterEscapes) : Escaped ascii c ['\\', d]
  | unit (h : c.toNat < 0x10000) : Escaped ascii c (unitEscape c.toNat)
  | pair (hascii : ascii = true) (h : 0x10000 ≤ c.toNat) :
      Escaped ascii c (unitEscape (0xd800 + (c.toNat - 0x10000) / 0x400) ++
        unitEscape (0xdc00 + (c.toNat - 0x10000) % 0x400))
  | plain (hquote : c ≠ '"') (hback : c ≠ '\\') (hline : 0x20 ≤ c.toNat)
      (hascii : ascii = true → c.toNat < 0x7f) : Escaped ascii c [c]

theorem escaped_escapeUnits {ascii : Bool} {c : Char}
    (h : c.toNat < 0x20 ∨ ascii = true ∧ 0x7f ≤ c.toNat) : Escaped ascii c (escapeUnits c) := by
  rw [escapeUnits]
  split
  · rename_i hsmall
    exact .unit hsmall
  · rename_i hlarge
    exact .pair (h.resolve_left (by omega)).1 (by omega)

theorem escaped_escapeChar (ascii : Bool) (c : Char) : Escaped ascii c (escapeChar ascii c) := by
  rw [escapeChar]
  have hletter {a d : Char} (h : c = a) (hmem : (a, d) ∈ letterEscapes) : Escaped ascii c ['\\', d] :=
    .letter (h ▸ hmem)
  refine iteInduction (fun h => hletter h (by decide)) fun hquote => ?_
  refine iteInduction (fun h => hletter h (by decide)) fun hback => ?_
  iterate 5 refine iteInduction (fun h => hletter h (by decide)) fun _ => ?_
  refine iteInduction (fun h => escaped_escapeUnits h) fun hplain => ?_
  exact .plain hquote hback (by omega) fun hascii => by simp [hascii] at hplain; omega

theorem readPoints_letter (start : Nat) {c d : Char} (h : (c, d) ∈ letterEscapes) (more : List Char) :
    readPoints start ('\\' :: d :: more) =
      (readPoints start more).map fun p => (c.toNat :: p.1, p.2) := by
  have hread : ∀ p ∈ letterEscapes, p.2 ≠ 'u' ∧ plainEscape? p.2 = some p.1 := by decide
  obtain ⟨hu, hplain⟩ := hread _ h
  rw [readPoints, hplain]
  exact hu

theorem readPoints_plain (start : Nat) {c : Char} (hquote : c ≠ '"') (hback : c ≠ '\\')
    (hline : 0x20 ≤ c.toNat) (more : List Char) :
    readPoints start (c :: more) = (readPoints start more).map fun p => (c.toNat :: p.1, p.2) := by
  rw [readPoints, if_neg (by omega)]
  · exact hquote
  · exact fun h _ => hback h
  · exact fun _ h _ => hback h
  · exact fun _ _ h _ => hback h

/-- A written character is read as its numbers. -/
theorem readPoints_escapeChar (ascii : Bool) (start : Nat) (c : Char) {more : List Char}
    (hmore : more ≠ []) :
    readPoints start (escapeChar ascii c ++ more) =
      (readPoints start more).map fun p => (charUnits ascii c ++ p.1, p.2) := by
  have hlt := toNat_lt c
  have hescaped := escaped_escapeChar ascii c
  generalize escapeChar ascii c = cs at hescaped ⊢
  cases hescaped with
  | letter h =>
      rw [charUnits_of_lt fun _ => letterEscapes_lt h]
      exact readPoints_letter start h more
  | unit h =>
      rw [charUnits_of_lt fun _ => h]
      exact readPoints_unitEscape start _ h hmore
  | pair hascii h =>
      rw [hascii, charUnits_of_le h, List.append_assoc,
        readPoints_unitEscape start _ (by omega) (by simp [unitEscape]),
        readPoints_unitEscape start _ (by omega) hmore]
      cases readPoints start more <;> rfl
  | plain hquote hback hline hascii =>
      rw [charUnits_of_lt fun h => (hascii h).trans (by decide)]
      exact readPoints_plain start hquote hback hline more

/-- The numbers that one code point is read as. -/
def pointUnits (ascii : Bool) (p : CodePoint) : List Nat :=
  match p.char? with
  | some c => charUnits ascii c
  | none => [p.val]

/-- A written code point is read as its numbers. -/
theorem readPoints_escapePoint (ascii : Bool) (start : Nat) (p : CodePoint) {more : List Char}
    (hmore : more ≠ []) :
    readPoints start (escapePoint ascii p ++ more) =
      (readPoints start more).map fun q => (pointUnits ascii p ++ q.1, q.2) := by
  rw [escapePoint, pointUnits]
  cases hchar : p.char? with
  | some c => exact readPoints_escapeChar ascii start c hmore
  | none =>
      exact readPoints_unitEscape start _
        (CodePoint.lt_of_isHalf (by simp [CodePoint.isHalf, hchar])) hmore

theorem readPoints_flatMap (ascii : Bool) (start : Nat) (t : Points) (rest : List Char) :
    readPoints start (t.flatMap (escapePoint ascii) ++ '"' :: rest) =
      .ok (t.flatMap (pointUnits ascii), rest) := by
  induction t with
  | nil => simp [readPoints]
  | cons p t ih =>
      rw [List.flatMap_cons, List.append_assoc, readPoints_escapePoint _ _ _ (by simp), ih]
      rfl

section

variable {τ σ : Type} [Spelled τ] [Spelled σ]

/-- The text that a text is read as when it has been written. -/
def reread (ascii : Bool) (t : τ) : σ :=
  Spelled.ofUnits ((Spelled.points t).flatMap (pointUnits ascii))

/-- A written text is read up to its closing quote. -/
theorem readString_writeString (ascii : Bool) (t : τ) (rest : List Char) :
    readString ((Spelled.points t).flatMap (escapePoint ascii) ++ '"' :: rest) =
      .ok ((reread ascii t : σ), rest) := by
  rw [readString, readPoints_flatMap, ok_map, reread]

end

theorem flatMap_ofString {α : Type} {f : CodePoint → List α} {g : Char → List α}
    (h : ∀ p c, p.char? = some c → f p = g c) (s : String) :
    (Points.ofString s).flatMap f = s.toList.flatMap g := by
  rw [Points.ofString, List.flatMap_map]
  exact List.flatMap_congr fun c _ => h _ c (CodePoint.char?_ofChar c)

/-- A string is written character by character. -/
theorem writeString_string (ascii : Bool) (s : String) :
    writeString ascii s = '"' :: s.toList.flatMap (escapeChar ascii) ++ ['"'] := by
  have hbody := flatMap_ofString (f := escapePoint ascii) (g := escapeChar ascii)
    (fun p c hchar => by simp only [escapePoint, hchar]) s
  rw [writeString, ← hbody]
  rfl

/-- A string is read as itself. -/
theorem reread_string (ascii : Bool) (s : String) : (reread ascii s : String) = s := by
  have hunits := flatMap_ofString (f := pointUnits ascii) (g := charUnits ascii)
    (fun p c hchar => by simp only [pointUnits, hchar]) s
  change String.ofList (joinUnits ((Points.ofString s).flatMap (pointUnits ascii))) = s
  rw [hunits, joinUnits_flatMap, String.ofList_toList]

end Json

namespace Points

/-- Code points that are characters, all of them. -/
def Whole (t : Points) : Prop := ∀ p ∈ t, p.char?.isSome

instance (t : Points) : Decidable t.Whole := inferInstanceAs (Decidable (∀ p ∈ t, p.char?.isSome))

theorem map_val_ofString (s : String) : (ofString s).map Fin.val = s.toList.map Char.toNat := by
  rw [ofString, List.map_map]
  rfl

theorem toString_ofString (s : String) : (ofString s).toString = s := by
  have hchars := Json.joinUnits_chars s.toList []
  rw [List.append_nil] at hchars
  rw [toString, map_val_ofString, hchars]
  simp [joinUnits]

theorem ofString_append (s t : String) : ofString (s ++ t) = ofString s ++ ofString t := by
  simp [ofString]

/-- A text that begins with two strings in a row begins with the first of them. -/
theorem ofString_append_append {both s t : String} (h : both = s ++ t) (rest : Points) :
    ofString both ++ rest = ofString s ++ (ofString t ++ rest) := by
  rw [h, ofString_append, List.append_assoc]

theorem ofString_injective : Function.Injective ofString :=
  Function.LeftInverse.injective toString_ofString

theorem toString_append_ofString (t : Points) (s : String) :
    (t ++ ofString s).toString = t.toString ++ s := by
  obtain rfl | hs := eq_or_ne s ""
  · simp [ofString]
  · have hne : s.toList ≠ [] := by simpa using hs
    have hjoined := Json.joinUnits_append_chars (t.map Fin.val) hne []
    rw [List.append_nil] at hjoined
    rw [toString, List.map_append, map_val_ofString, hjoined, toString]
    simp [joinUnits, String.ofList_append]

theorem whole_ofString (s : String) : (ofString s).Whole := by
  intro p hp
  obtain ⟨c, -, rfl⟩ := List.mem_map.mp hp
  rw [CodePoint.char?_ofChar]
  rfl

/-- Whole code points are those of a text. -/
theorem Whole.exists_ofString {t : Points} (h : t.Whole) : ∃ s, t = ofString s := by
  induction t with
  | nil => exact ⟨"", rfl⟩
  | cons p rest ih =>
      obtain ⟨c, hc⟩ := Option.isSome_iff_exists.mp (h p List.mem_cons_self)
      obtain ⟨s, rfl⟩ := ih fun q hq => h q (List.mem_cons_of_mem p hq)
      refine ⟨String.ofList (c :: s.toList), ?_⟩
      simp [ofString, CodePoint.ofChar_char? hc]

/-- The strings that code points are. -/
theorem string?_eq_some {t : Points} {s : String} : t.string? = some s ↔ ofString s = t := by
  have hchars {cs : List Char} : t.mapM CodePoint.char? = some cs ↔ cs.map .ofChar = t := by
    induction t generalizing cs with
    | nil => simp
    | cons p rest ih =>
        simp only [List.mapM_cons, Option.bind_eq_bind, Option.bind_eq_some_iff, Option.pure_def,
          Option.some.injEq, ih, List.map_eq_cons_iff]
        constructor
        · rintro ⟨c, hchar, cs', hcs, rfl⟩
          exact ⟨c, cs', rfl, CodePoint.ofChar_char? hchar, hcs⟩
        · rintro ⟨c, cs', rfl, rfl, hcs⟩
          exact ⟨c, CodePoint.char?_ofChar c, cs', hcs, rfl⟩
  rw [string?, Option.map_eq_some_iff, ofString]
  constructor
  · rintro ⟨cs, hcs, rfl⟩
    rw [String.toList_ofList]
    exact hchars.mp hcs
  · exact fun h => ⟨s.toList, hchars.mpr h, String.ofList_toList⟩

/-! ### Code points read again -/

section

variable {ns : List Nat} {n m : Nat}

theorem ofUnits_cons (h : isHighUnit n = false) : ofUnits (n :: ns) = .ofNat n :: ofUnits ns := by
  cases ns <;> simp [ofUnits, h]

theorem ofUnits_cons_cons (h : isLowUnit m = false) :
    ofUnits (n :: m :: ns) = .ofNat n :: ofUnits (m :: ns) := by
  simp [ofUnits, h]

/-- A character is read as itself, whatever follows it. -/
theorem ofUnits_charUnits (ascii : Bool) (c : Char) (ns : List Nat) :
    ofUnits (Json.charUnits ascii c ++ ns) = .ofChar c :: ofUnits ns := by
  rw [Json.charUnits]
  split
  · rename_i h
    have hlt := Json.toNat_lt c
    have hhigh : isHighUnit (0xd800 + (c.toNat - 0x10000) / 0x400) = true := by
      simp only [isHighUnit, Bool.and_eq_true, decide_eq_true_eq]
      omega
    have hlow : isLowUnit (0xdc00 + (c.toNat - 0x10000) % 0x400) = true := by
      simp only [isLowUnit, Bool.and_eq_true, decide_eq_true_eq]
      omega
    have hsum : 0x10000 + (0xd800 + (c.toNat - 0x10000) / 0x400 - 0xd800) * 0x400 +
        (0xdc00 + (c.toNat - 0x10000) % 0x400 - 0xdc00) = c.toNat := by
      omega
    simp only [List.cons_append, List.nil_append, ofUnits, hhigh, hlow, Bool.and_self, if_true,
      hsum, CodePoint.ofNat_toNat]
  · rw [List.singleton_append, ofUnits_cons (Json.not_unit c).1, CodePoint.ofNat_toNat]

/-- What a code point is read as begins with the second half of a pair only if it is one. -/
theorem pointUnits_eq_cons (ascii : Bool) {p : CodePoint} (h : isLowUnit p.val = false) :
    ∃ n ns, Json.pointUnits ascii p = n :: ns ∧ isLowUnit n = false := by
  rw [Json.pointUnits]
  cases hchar : p.char? with
  | none => exact ⟨_, _, rfl, h⟩
  | some c =>
      have hc := CodePoint.ofChar_char? hchar
      subst hc
      simp only [Json.charUnits]
      split
      · refine ⟨_, _, rfl, ?_⟩
        have hlt := Json.toNat_lt c
        simp only [isLowUnit, Bool.and_eq_false_iff, decide_eq_false_iff_not]
        omega
      · exact ⟨_, _, rfl, h⟩

/-- Code points that are written and read are joined to pairs, and are otherwise left as they
are. -/
theorem ofUnits_flatMap (ascii : Bool) (t : Points) :
    ofUnits (t.flatMap (Json.pointUnits ascii)) = ofUnits (t.map Fin.val) := by
  match t with
  | [] => rfl
  | p :: rest =>
      have ih := ofUnits_flatMap ascii rest
      cases hchar : p.char? with
      | some c =>
          have hc := CodePoint.ofChar_char? hchar
          have hunit : [p.val] = Json.charUnits false c := by
            rw [← hc, Json.charUnits_of_lt (by simp), CodePoint.val_ofChar]
          rw [List.flatMap_cons, List.map_cons, ← List.singleton_append (x := p.val), hunit,
            Json.pointUnits, hchar]
          simp only [ofUnits_charUnits, ih]
      | none =>
          have hunits : Json.pointUnits ascii p = [p.val] := by rw [Json.pointUnits, hchar]
          rw [List.flatMap_cons, List.map_cons, hunits, List.singleton_append]
          match rest with
          | [] => rfl
          | q :: more =>
              have ihmore := ofUnits_flatMap ascii more
              cases hq : isLowUnit q.val with
              | false =>
                  obtain ⟨n, ns, hn, hlow⟩ := pointUnits_eq_cons ascii hq
                  rw [List.flatMap_cons, hn, List.cons_append] at ih ⊢
                  rw [ofUnits_cons_cons hlow, ih, List.map_cons, ofUnits_cons_cons hq]
              | true =>
                  have hhalf := CodePoint.isHalf_iff.mpr (.inr hq)
                  have hqunits : Json.pointUnits ascii q = [q.val] := by
                    rw [Json.pointUnits, Option.isNone_iff_eq_none.mp hhalf]
                  rw [List.flatMap_cons, hqunits, List.singleton_append] at ih ⊢
                  rw [List.map_cons] at ih ⊢
                  simp only [ofUnits, ih, ihmore]

/-- How a code point is shown. -/
theorem getD_char?_ofNat (h : n < 0x110000) : (CodePoint.ofNat n).char?.getD '\ufffd' =
    if isHighUnit n || isLowUnit n then '\ufffd' else Char.ofNat n := by
  have hval : (CodePoint.ofNat n).val = n := Nat.mod_eq_of_lt h
  have hhalf := CodePoint.isHalf_iff (p := .ofNat n)
  rw [hval] at hhalf
  rw [← Bool.or_eq_true] at hhalf
  cases hchar : (CodePoint.ofNat n).char? with
  | none => rw [if_pos (hhalf.mp (by rw [CodePoint.isHalf, hchar]; rfl))]; rfl
  | some c =>
      have hc := CodePoint.ofChar_char? hchar
      rw [if_neg (fun hn => by simp [CodePoint.isHalf_eq_false hchar] at hhalf; simp_all)]
      rw [Option.getD_some, ← hval, ← hc, CodePoint.val_ofChar, Char.ofNat_toNat]

theorem joinUnits_eq_map (h : ∀ n ∈ ns, n < 0x110000) :
    joinUnits ns = (ofUnits ns).map fun p => p.char?.getD '\ufffd' := by
  induction ns using joinUnits.induct with
  | case1 => rfl
  | case2 n =>
      simp only [List.mem_singleton, forall_eq] at h
      simp only [joinUnits, ofUnits, List.map_cons, List.map_nil, getD_char?_ofNat h]
  | case3 n m rest hpair ih =>
      simp only [List.forall_mem_cons] at h
      have hunits := hpair
      simp only [isHighUnit, isLowUnit, Bool.and_eq_true, decide_eq_true_eq] at hunits
      have hlt : 0x10000 + (n - 0xd800) * 0x400 + (m - 0xdc00) < 0x110000 := by omega
      have hplain : (isHighUnit (0x10000 + (n - 0xd800) * 0x400 + (m - 0xdc00)) ||
          isLowUnit (0x10000 + (n - 0xd800) * 0x400 + (m - 0xdc00))) = false := by
        simp only [isHighUnit, isLowUnit, Bool.or_eq_false_iff, Bool.and_eq_false_iff,
          decide_eq_false_iff_not]
        omega
      simp only [joinUnits, ofUnits, hpair, if_true, List.map_cons, getD_char?_ofNat hlt, hplain,
        Bool.false_eq_true, if_false, ih h.2.2]
  | case4 n m rest hpair ih =>
      rw [List.forall_mem_cons] at h
      simp only [joinUnits, ofUnits, hpair, Bool.false_eq_true, if_false, List.map_cons,
        getD_char?_ofNat h.1, ih h.2]

end

theorem reread_ofString (ascii : Bool) (s : String) :
    (Json.reread ascii (ofString s) : Points) = ofString s := by
  change ofUnits ((ofString s).flatMap (Json.pointUnits ascii)) = ofString s
  rw [ofUnits_flatMap, map_val_ofString, ofString]
  induction s.toList with
  | nil => rfl
  | cons c rest ih =>
      rw [List.map_cons, ofUnits_cons (Json.not_unit c).1, ih, CodePoint.ofNat_toNat, List.map_cons]

/-- Whole code points are read as they are. -/
theorem Whole.reread {t : Points} (h : t.Whole) (ascii : Bool) :
    (Json.reread ascii t : Points) = t := by
  obtain ⟨s, rfl⟩ := h.exists_ofString
  exact reread_ofString ascii s

/-- Code points are read as the string that they are shown as. -/
theorem reread_eq_toString (ascii : Bool) (t : Points) :
    (Json.reread ascii t : String) = t.toString := by
  have hunits : ∀ n ∈ t.flatMap (Json.pointUnits ascii), n < 0x110000 := by
    intro n hn
    obtain ⟨p, -, hn⟩ := List.mem_flatMap.mp hn
    rw [Json.pointUnits] at hn
    have hlt := p.isLt
    split at hn
    · rename_i c hchar
      have hc := Json.toNat_lt c
      rw [Json.charUnits] at hn
      split at hn <;> simp only [List.mem_cons, List.not_mem_nil, or_false] at hn <;> omega
    · rw [List.mem_singleton.mp hn]
      exact hlt
  have hvals : ∀ n ∈ t.map Fin.val, n < 0x110000 := by
    intro n hn
    obtain ⟨p, -, rfl⟩ := List.mem_map.mp hn
    exact p.isLt
  change String.ofList (joinUnits (t.flatMap (Json.pointUnits ascii))) = t.toString
  rw [joinUnits_eq_map hunits, ofUnits_flatMap, ← joinUnits_eq_map hvals, toString]

end Points

/-- Read as strings, a value is what it is shown as. -/
theorem Json.mapTexts_reread (ascii : Bool) (v : Json Points) :
    v.mapTexts (reread ascii) = v.shown := by
  rw [shown, show reread ascii = Points.toString from funext (Points.reread_eq_toString ascii)]

end BlockWorkbench
