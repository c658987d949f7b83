import BlockWorkbench.Proofs.Json.Strings
import BlockWorkbench.Proofs.Script.Data
import BlockWorkbench.Script.Engine

/-!
Notes in errors. A note is put behind one argument of an error and leaves the others as they are.
The text of an error is made from its arguments, and then notes put into it one after another are
seen in it in this order; but the text of a system error that was made of two to five arguments was
settled when it was made.
-/

namespace BlockWorkbench

namespace Text

/-- Whether the characters of a text stand for themselves between any quotes. -/
def Unescaped (s : String) : Prop :=
  ∀ c ∈ s.toList, isPrintable c = true ∧ c ≠ '\'' ∧ c ≠ '"' ∧ c ≠ '\\'

theorem quoteChar_of_unescaped {mark c : Char} (hmark : mark = '\'' ∨ mark = '"')
    (hprintable : isPrintable c = true) (hc : c ≠ '\'' ∧ c ≠ '"' ∧ c ≠ '\\') :
    quoteChar mark c = [c] := by
  have hne {d : Char} (hd : isPrintable d = false) : c ≠ d := by
    rintro rfl
    simp [hprintable] at hd
  have hfeed := hne (d := '\n') (by decide)
  have hreturn := hne (d := '\r') (by decide)
  have htab := hne (d := '\t') (by decide)
  obtain rfl | rfl := hmark <;> simp [quoteChar, hc, hprintable, hfeed, hreturn, htab]

theorem quoteMark_cases (cs : List Char) : quoteMark cs = '\'' ∨ quoteMark cs = '"' := by
  rw [quoteMark]
  split <;> simp

theorem unescaped_append {s t : String} : Unescaped (s ++ t) ↔ Unescaped s ∧ Unescaped t := by
  rw [Unescaped, String.toList_append, List.forall_mem_append]
  rfl

/-- ASCII letters, digits, underscores and blanks stand for themselves. -/
theorem unescaped_of_words {s : String}
    (h : ∀ c ∈ s.toList, c.isAlphanum = true ∨ c = '_' ∨ c = ' ') : Unescaped s := by
  intro c hc
  obtain halnum | rfl | rfl := h c hc
  · have hrange : 0x30 ≤ c.toNat ∧ c.toNat ≤ 0x7a := by
      simp only [Char.isAlphanum, Char.isAlpha, Char.isUpper, Char.isLower, Char.isDigit,
        Bool.or_eq_true, Bool.and_eq_true, decide_eq_true_eq, ge_iff_le, UInt32.le_iff_toNat_le,
        Char.toNat_val] at halnum
      change ((0x41 ≤ c.toNat ∧ c.toNat ≤ 0x5a) ∨ (0x61 ≤ c.toNat ∧ c.toNat ≤ 0x7a)) ∨
        (0x30 ≤ c.toNat ∧ c.toNat ≤ 0x39) at halnum
      omega
    refine ⟨?_, ?_, ?_, ?_⟩
    · rw [isPrintable, if_pos (by omega)]
      exact decide_eq_true (by omega)
    all_goals
      rintro rfl
      exact absurd halnum (by decide)
  · decide
  · decide

/-- Whether texts stand in a text, each behind the one before. -/
def InOrder : List String → List Char → Prop
  | [], _ => True
  | part :: rest, cs => ∃ before after, cs = before ++ part.toList ++ after ∧ InOrder rest after

theorem inOrder_infix {parts : List String} {cs : List Char} (h : InOrder parts cs)
    (before after : List Char) : InOrder parts (before ++ cs ++ after) := by
  induction parts generalizing cs before with
  | nil => trivial
  | cons part rest ih =>
      obtain ⟨first, later, rfl, hrest⟩ := h
      exact ⟨before ++ first, later ++ after, by simp, by simpa using ih hrest []⟩

theorem inOrder_concat {parts : List String} {cs : List Char} (h : InOrder parts cs)
    (between : List Char) (last : String) :
    InOrder (parts ++ [last]) (cs ++ between ++ last.toList) := by
  induction parts generalizing cs with
  | nil => exact ⟨cs ++ between, [], by simp, trivial⟩
  | cons part rest ih =>
      obtain ⟨before, after, rfl, hrest⟩ := h
      exact ⟨before, after ++ between ++ last.toList, by simp, ih hrest⟩

end Text

namespace Points

/-- A text whose characters stand for themselves is seen in quotes. -/
theorem infix_quoted (t : Points) {s : String} (hs : Text.Unescaped s) :
    s.toList <:+: (t ++ ofString s).quoted.toList := by
  have hkept (mark : Char) (hmark : mark = '\'' ∨ mark = '"') :
      (ofString s).flatMap (CodePoint.quoted mark) = s.toList := by
    rw [ofString, List.flatMap_map]
    refine (List.flatMap_congr fun c hc => ?_).trans (List.flatMap_singleton' _)
    rw [CodePoint.quoted, CodePoint.char?_ofChar]
    exact Text.quoteChar_of_unescaped hmark (hs c hc).1 (hs c hc).2
  rw [quoted, String.toList_ofList, List.flatMap_append, hkept _ (Text.quoteMark_cases _),
    ← List.cons_append]
  exact List.infix_append _ _ _

end Points

namespace Script

open Text (Unescaped InOrder)

/-- Which argument of an error a note is put behind. -/
def ErrorObject.notedIndex (e : ErrorObject) : Nat :=
  if e.kind.isSystem = true ∧ e.args.length = 2 then 1 else 0

namespace Store

variable {s : Store} {e e' e'' : ErrorObject} {note : String} {notes : List String}

/-! ### Putting notes into an error -/

theorem annotate_eq (s : Store) (note : String) (e : ErrorObject) :
    s.annotate note e = match e.args[e.notedIndex]? with
    | none => .ok { e with args := [.str (.ofString note)] }
    | some v => (s.plain v).map fun t =>
      { e with args := e.args.set e.notedIndex (.str (t ++ .ofString (" " ++ note))) } := by
  obtain ⟨kind, args, detail⟩ := e
  match args with
  | [] => simp [annotate, ErrorObject.notedIndex]
  | [v] =>
      simp only [annotate, ErrorObject.notedIndex]
      cases h : s.plain v <;> simp [h]
  | [v, w] =>
      by_cases hkind : kind.isSystem = true
      · simp only [annotate, ErrorObject.notedIndex, hkind]
        cases h : s.plain w <;> simp [h]
      · simp only [annotate, ErrorObject.notedIndex, hkind]
        cases h : s.plain v <;> simp [h]
  | v :: w :: x :: rest =>
      simp only [annotate, ErrorObject.notedIndex]
      cases h : s.plain v <;> simp [h]

/-- What putting notes into `e` leaves as it was: all but one argument, which there is then. -/
structure Kept (e e' : ErrorObject) : Prop where
  kind : e'.kind = e.kind
  detail : e'.detail? = e.detail?
  length : e'.args.length = max 1 e.args.length
  others : ∀ i, i ≠ e.notedIndex → e'.args[i]? = e.args[i]?

theorem Kept.notedIndex (h : Kept e e') : e'.notedIndex = e.notedIndex := by
  have hlength : e'.args.length = 2 ↔ e.args.length = 2 := by
    have := h.length
    omega
  simp only [ErrorObject.notedIndex, h.kind, hlength]

theorem Kept.trans (h : Kept e e') (h' : Kept e' e'') : Kept e e'' where
  kind := h'.kind.trans h.kind
  detail := h'.detail.trans h.detail
  length := by rw [h'.length, h.length, ← max_assoc, max_self]
  others i hi := (h'.others i (h.notedIndex ▸ hi)).trans (h.others i hi)

theorem getElem?_notedIndex_eq_none : e.args[e.notedIndex]? = none ↔ e.args = [] := by
  rw [List.getElem?_eq_none_iff, ← List.length_eq_zero_iff, ErrorObject.notedIndex]
  split <;> omega

theorem kept_of_annotate (h : s.annotate note e = .ok e') : Kept e e' := by
  rw [annotate_eq] at h
  cases hv : e.args[e.notedIndex]? with
  | none =>
      have hargs := getElem?_notedIndex_eq_none.mp hv
      have hindex : e.notedIndex = 0 := by simp [ErrorObject.notedIndex, hargs]
      rw [hv] at h
      cases h
      exact ⟨rfl, rfl, by simp [hargs], fun i hi => by simp [hargs, hindex ▸ hi]⟩
  | some v =>
      rw [hv] at h
      obtain ⟨t, -, rfl⟩ := map_eq_ok.mp h
      have hlt := (List.getElem?_eq_some_iff.mp hv).1
      exact ⟨rfl, rfl, by simp; omega, fun i hi => List.getElem?_set_ne hi.symm⟩

/-- A note can be put into an error if the argument that it is put behind has a text. -/
theorem exists_annotate_iff : (∃ e', s.annotate note e = .ok e') ↔
    ∀ v, e.args[e.notedIndex]? = some v → ∃ t, s.plain v = .ok t := by
  rw [annotate_eq]
  cases e.args[e.notedIndex]? with
  | none => simp
  | some v => simp [map_eq_ok]

/-- One argument ends with notes, in order; all else is as it was in `e`. -/
structure Noted (notes : List String) (e e' : ErrorObject) : Prop extends Kept e e' where
  noted : ∃ t last, e'.args[e.notedIndex]? = some (.str (t ++ .ofString last)) ∧
    Unescaped last ∧ InOrder notes last.toList

theorem noted_of_annotate (hnote : Unescaped note) (h : s.annotate note e = .ok e') :
    Noted [note] e e' := by
  have horder : InOrder [note] note.toList := ⟨[], [], by simp, trivial⟩
  refine ⟨kept_of_annotate h, ?_⟩
  rw [annotate_eq] at h
  cases hv : e.args[e.notedIndex]? with
  | none =>
      have hindex : e.notedIndex = 0 := by
        simp [ErrorObject.notedIndex, getElem?_notedIndex_eq_none.mp hv]
      rw [hv] at h
      cases h
      exact ⟨[], note, by simp [hindex], hnote, horder⟩
  | some v =>
      rw [hv] at h
      obtain ⟨t, -, rfl⟩ := map_eq_ok.mp h
      have hlt := (List.getElem?_eq_some_iff.mp hv).1
      exact ⟨t ++ .ofString " ", note, by simp [hlt, Points.ofString], hnote, horder⟩

/-- What a further note leaves. -/
theorem Noted.annotate (h : Noted notes e e') (s : Store) (hnote : Unescaped note) :
    ∃ e'', s.annotate note e' = .ok e'' ∧ Noted (notes ++ [note]) e e'' := by
  obtain ⟨t, last, hnoted, hlast, horder⟩ := h.noted
  have hlt : e.notedIndex < e'.args.length := (List.getElem?_eq_some_iff.mp hnoted).1
  have hblank : Unescaped " " := Text.unescaped_of_words (by simp)
  have hplain : s.plain (.str (t ++ .ofString last)) = .ok (t ++ .ofString last) := rfl
  have hannotated := annotate_eq s note e'
  simp only [h.notedIndex, hnoted, hplain, ok_map] at hannotated
  refine ⟨_, hannotated, h.toKept.trans (kept_of_annotate hannotated), t, last ++ " " ++ note,
    ?_, ?_, ?_⟩
  · simp [hlt, Points.ofString]
  · exact Text.unescaped_append.mpr ⟨Text.unescaped_append.mpr ⟨hlast, hblank⟩, hnote⟩
  · simpa using Text.inOrder_concat horder [' '] note

/-- Notes put into an error one after another. -/
def annotateAll (s : Store) (notes : List String) (e : ErrorObject) :
    Except RuntimeFault ErrorObject :=
  notes.foldlM (fun e note => s.annotate note e) e

theorem annotateAll_single : s.annotateAll [note] e = s.annotate note e := by
  rw [annotateAll, List.foldlM_cons]
  cases s.annotate note e <;> rfl

theorem kept_of_annotateAll (hne : notes ≠ []) (h : s.annotateAll notes e = .ok e') :
    Kept e e' := by
  obtain ⟨note, rest, rfl⟩ := List.exists_cons_of_ne_nil hne
  rw [annotateAll, List.foldlM_cons] at h
  obtain ⟨e₁, he₁, h⟩ := bind_eq_ok.mp h
  exact foldlM_keeps h (kept_of_annotate he₁) fun _ _ _ _ hkept hstep =>
    hkept.trans (kept_of_annotate hstep)

theorem Noted.annotateAll (h : Noted notes e e') (s : Store) {more : List String}
    (hmore : ∀ note ∈ more, Unescaped note) :
    ∃ e'', s.annotateAll more e' = .ok e'' ∧ Noted (notes ++ more) e e'' := by
  induction more generalizing notes e' with
  | nil => exact ⟨e', rfl, by simpa using h⟩
  | cons note rest ih =>
      rw [List.forall_mem_cons] at hmore
      obtain ⟨e₁, he₁, hnoted⟩ := h.annotate s hmore.1
      obtain ⟨e₂, he₂, hall⟩ := ih hnoted hmore.2
      refine ⟨e₂, ?_, by simpa using hall⟩
      rw [Store.annotateAll, List.foldlM_cons, he₁]
      exact he₂

/-- Once one note can be put into an error, all can. -/
theorem annotateAll_of_plain (hne : notes ≠ []) (hnotes : ∀ note ∈ notes, Unescaped note)
    (hplain : ∀ v, e.args[e.notedIndex]? = some v → ∃ t, s.plain v = .ok t) :
    ∃ e', s.annotateAll notes e = .ok e' ∧ Noted notes e e' := by
  obtain ⟨note, rest, rfl⟩ := List.exists_cons_of_ne_nil hne
  rw [List.forall_mem_cons] at hnotes
  obtain ⟨e₁, he₁⟩ := exists_annotate_iff.mpr hplain
  obtain ⟨e₂, he₂, hall⟩ := (noted_of_annotate hnotes.1 he₁).annotateAll s hnotes.2
  refine ⟨e₂, ?_, hall⟩
  rw [annotateAll, List.foldlM_cons, he₁]
  exact he₂

/-! ### The text of an error with notes -/

theorem eachText_eq_ok {α : Type} {text : α → Except RuntimeFault String} {vs : List α}
    {texts : List String} :
    eachText text vs = .ok texts ↔ List.Forall₂ (text · = .ok ·) vs texts := by
  induction vs generalizing texts with
  | nil => cases texts <;> simp [eachText]
  | cons v rest ih =>
      simp only [eachText, bind_eq_ok, ih]
      cases texts <;> simp [pure, Except.pure]

/-- How the arguments of an error are written, if there are several. -/
def argumentLiteral (s : Store) (v : Value) : Except RuntimeFault String :=
  s.literalWithin (nestingLimit - 1) [] [] v

theorem literal_tuple_eq_ok {args : List Value} (h : 2 ≤ args.length) {text : String} :
    s.literal (.tuple args) = .ok text ↔
      ∃ texts, List.Forall₂ (s.argumentLiteral · = .ok ·) args texts ∧
        "(" ++ Json.commaSeparated texts ++ ")" = text := by
  obtain ⟨v, w, rest, rfl⟩ : ∃ v w rest, args = v :: w :: rest := by
    match args, h with
    | v :: w :: rest, _ => exact ⟨v, w, rest, rfl⟩
  simp only [← eachText_eq_ok]
  exact bind_eq_ok.trans (by simp [pure, Except.pure]; rfl)

theorem exists_literal_tuple_iff {args : List Value} (h : 2 ≤ args.length) :
    (∃ text, s.literal (.tuple args) = .ok text) ↔
      ∀ v ∈ args, ∃ text, s.argumentLiteral v = .ok text := by
  have htexts (vs : List Value) : (∃ texts, List.Forall₂ (s.argumentLiteral · = .ok ·) vs texts) ↔
      ∀ v ∈ vs, ∃ text, s.argumentLiteral v = .ok text := by
    induction vs with
    | nil => simp
    | cons v rest ih => simp [List.forall₂_cons_left_iff, ← ih]
  simp only [literal_tuple_eq_ok h, ← htexts]
  exact ⟨fun ⟨_, texts, htexts, _⟩ => ⟨texts, htexts⟩,
    fun ⟨texts, htexts⟩ => ⟨_, texts, htexts, rfl⟩⟩

theorem infix_commaSeparated {part : String} {parts : List String} (h : part ∈ parts) :
    part.toList <:+: (Json.commaSeparated parts).toList := by
  rw [Json.commaSeparated, String.toList_intercalate]
  induction parts with
  | nil => cases h
  | cons first rest ih =>
      cases rest with
      | nil => simp_all
      | cons second rest =>
          rw [List.map_cons, List.map_cons, List.intercalate_cons_cons, ← List.map_cons]
          obtain rfl | h := List.mem_cons.mp h
          · exact ⟨[], _, by rw [List.nil_append, List.append_assoc]⟩
          · exact (ih h).trans (List.suffix_append _ _).isInfix

theorem errorText_single {v : Value} (hdetail : e.detail? = none) (hargs : e.args = [v]) :
    s.errorText s.plain e =
      if e.kind = .key then (s.literal v).map .ofString else s.plain v := by
  simp [errorText, hdetail, hargs]

theorem errorText_several (hdetail : e.detail? = none) (h : 2 ≤ e.args.length) :
    s.errorText s.plain e = (s.literal (.tuple e.args)).map .ofString := by
  obtain ⟨kind, args, detail⟩ := e
  match args, h with
  | v :: w :: rest, _ => simp_all [errorText]

/-- The text of a system error that says what it was made of does not depend on its arguments. -/
theorem errorText_of_detail {d : SystemDetail} (h : e.detail? = some d) (h' : e'.detail? = some d) :
    s.errorText s.plain e' = s.errorText s.plain e := by
  simp [errorText, h, h']

/-- Whether texts are seen in the text of an error, each behind the one before. -/
def Shows (s : Store) (e : ErrorObject) (texts : List String) : Prop :=
  ∃ t, s.errorText s.plain e = .ok t ∧ InOrder texts t.toString.toList

/-- Whether the arguments of an error can be written: the one that notes are put behind, and the
others if the text is made from them. -/
structure Legible (s : Store) (e : ErrorObject) : Prop where
  noted : ∀ v, e.args[e.notedIndex]? = some v → ∃ t, s.plain v = .ok t
  others : e.detail? = none → ∀ i v, i ≠ e.notedIndex → e.args[i]? = some v →
    ∃ text, s.argumentLiteral v = .ok text

namespace Noted

/-- If there was at most one argument, the text is that of the note behind it. -/
theorem shows_single (h : Noted notes e e') (hdetail : e.detail? = none)
    (hlength : e.args.length ≤ 1) : s.Shows e' notes := by
  obtain ⟨t, last, hnoted, hlast, horder⟩ := h.noted
  have hindex : e.notedIndex = 0 := if_neg fun htwo => by omega
  obtain ⟨v, hargs⟩ := List.length_eq_one_iff.mp (h.length.trans (max_eq_left hlength))
  obtain rfl : v = .str (t ++ .ofString last) := by simpa [hindex, hargs] using hnoted
  rw [Shows, errorText_single (h.detail.trans hdetail) hargs]
  split
  · obtain ⟨before, after, hquoted⟩ := Points.infix_quoted t hlast
    refine ⟨_, rfl, ?_⟩
    rw [Points.toString_ofString, ← hquoted]
    exact Text.inOrder_infix horder before after
  · refine ⟨_, rfl, ?_⟩
    rw [Points.toString_append_ofString, String.toList_append]
    simpa using Text.inOrder_infix horder t.toString.toList []

/-- If there were several, it is that of all of them in brackets. -/
theorem shows_several_iff (h : Noted notes e e') (hdetail : e.detail? = none)
    (hlength : 2 ≤ e.args.length) : s.Shows e' notes ↔
      ∀ i v, i ≠ e.notedIndex → e.args[i]? = some v → ∃ text, s.argumentLiteral v = .ok text := by
  obtain ⟨t, last, hnoted, hlast, horder⟩ := h.noted
  have hlength' : 2 ≤ e'.args.length := h.length ▸ le_max_of_le_right hlength
  rw [Shows, errorText_several (h.detail.trans hdetail) hlength']
  constructor
  · rintro ⟨text, htext, -⟩ i v hi hv
    obtain ⟨text, htext, -⟩ := map_eq_ok.mp htext
    rw [← h.others i hi] at hv
    exact (exists_literal_tuple_iff hlength').mp ⟨text, htext⟩ v (List.mem_of_getElem? hv)
  · intro hothers
    obtain ⟨text, htext⟩ := (exists_literal_tuple_iff hlength').mpr fun v hv => by
      obtain ⟨i, hi⟩ := List.mem_iff_getElem?.mp hv
      obtain rfl | hne := eq_or_ne i e.notedIndex
      · cases hnoted.symm.trans hi
        exact ⟨_, rfl⟩
      · exact hothers i v hne (h.others i hne ▸ hi)
    refine ⟨_, map_eq_ok.mpr ⟨text, htext, rfl⟩, ?_⟩
    obtain ⟨texts, htexts, rfl⟩ := (literal_tuple_eq_ok hlength').mp htext
    have hmem : (t ++ Points.ofString last).quoted ∈ texts := by
      obtain ⟨hsize, hwritten⟩ := List.forall₂_iff_get.mp htexts
      obtain ⟨hlt, hget⟩ := List.getElem?_eq_some_iff.mp hnoted
      have hquoted := hwritten e.notedIndex hlt (hsize ▸ hlt)
      rw [List.get_eq_getElem, hget] at hquoted
      exact Except.ok.inj hquoted ▸ List.get_mem _ _
    obtain ⟨before, after, hin⟩ :=
      (Points.infix_quoted t hlast).trans (infix_commaSeparated hmem)
    rw [Points.toString_ofString, String.toList_append, String.toList_append, ← hin]
    exact Text.inOrder_infix (Text.inOrder_infix horder before after) _ _

end Noted

/-- Notes that are put into an error one after another are seen in its text in this order exactly
if its arguments can be written and its text is made from them, or shows the notes anyway. -/
theorem shows_notes_iff (hne : notes ≠ []) (hnotes : ∀ note ∈ notes, Unescaped note) :
    (∃ e', s.annotateAll notes e = .ok e' ∧ s.Shows e' notes) ↔
      s.Legible e ∧ (e.detail? = none ∨ s.Shows e notes) := by
  constructor
  · rintro ⟨e', he', hshows⟩
    -- The first note already asks for the text of the argument that it joins.
    have hplain : ∀ v, e.args[e.notedIndex]? = some v → ∃ t, s.plain v = .ok t := by
      obtain ⟨note, rest, rfl⟩ := List.exists_cons_of_ne_nil hne
      rw [annotateAll, List.foldlM_cons] at he'
      obtain ⟨e₁, he₁, -⟩ := bind_eq_ok.mp he'
      exact exists_annotate_iff.mp ⟨e₁, he₁⟩
    obtain ⟨e'', he'', hnoted⟩ := annotateAll_of_plain hne hnotes hplain
    obtain rfl : e'' = e' := Except.ok.inj (he''.symm.trans he')
    cases hdetail : e.detail? with
    | some d =>
        have htext := errorText_of_detail (s := s) hdetail (hnoted.detail.trans hdetail)
        rw [Shows, htext] at hshows
        exact ⟨⟨hplain, by simp [hdetail]⟩, .inr hshows⟩
    | none =>
        refine ⟨⟨hplain, fun _ i v hi hv => ?_⟩, .inl rfl⟩
        have hlt := (List.getElem?_eq_some_iff.mp hv).1
        obtain hlength | hlength := Nat.lt_or_ge e.args.length 2
        · have hindex : e.notedIndex = 0 := if_neg fun htwo => by omega
          omega
        · exact (hnoted.shows_several_iff hdetail hlength).mp hshows i v hi hv
  · rintro ⟨hlegible, hmade⟩
    obtain ⟨e', he', hnoted⟩ := annotateAll_of_plain hne hnotes hlegible.noted
    refine ⟨e', he', ?_⟩
    cases hdetail : e.detail? with
    | some d =>
        have htext := errorText_of_detail (s := s) hdetail (hnoted.detail.trans hdetail)
        obtain hnone | hshows := hmade
        · simp [hdetail] at hnone
        · rwa [Shows, htext]
    | none =>
        obtain hlength | hlength := Nat.lt_or_ge e.args.length 2
        · exact hnoted.shows_single hdetail (Nat.le_of_lt_succ hlength)
        · exact (hnoted.shows_several_iff hdetail hlength).mpr (hlegible.others hdetail)

end Store

end Script

end BlockWorkbench
