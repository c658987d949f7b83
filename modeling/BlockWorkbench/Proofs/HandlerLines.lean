import BlockWorkbench.Proofs.RenamingBack

/-!
What a rename makes of code, told from its lines alone. A line that consists of a lead, the old
name, gaps and an opening bracket gets the new name in the place of the old one, and has one such
form at most; every other line stays as it is. Blanks at the ends of a name change nothing about
this, nor does a name that looks like a keyword.
-/

namespace BlockWorkbench.Handler

theorem opens_iff {rest : List Char} : opens rest = true ↔
    ∃ gaps more, (∀ c ∈ gaps, isGap c = true) ∧ rest = gaps ++ '(' :: more := by
  constructor
  · intro h
    rw [opens, beq_iff_eq, List.head?_eq_some_iff] at h
    obtain ⟨more, hmore⟩ := h
    refine ⟨rest.takeWhile isGap, more, fun c hc => List.mem_takeWhile_imp hc, ?_⟩
    rw [← hmore, List.takeWhile_append_dropWhile]
  · rintro ⟨gaps, more, hgaps, rfl⟩
    have hbracket : ('(' :: more).dropWhile isGap = '(' :: more := rfl
    rw [opens, List.dropWhile_append_of_pos hgaps, hbracket]
    rfl

/-- What becomes of one line when `old` is renamed to `new`. -/
inductive LineRenamed (old new : List Char) : List Char → List Char → Prop
  | definition {lead gaps more : List Char} : IsLead lead → (∀ c ∈ gaps, isGap c = true) →
      LineRenamed old new (lead ++ (old ++ (gaps ++ '(' :: more)))
        (lead ++ (new ++ (gaps ++ '(' :: more)))
  | other {line : List Char} : (∀ lead rest, ¬ Defines old line lead rest) →
      LineRenamed old new line line

theorem lineRenamed_renameLine {old : List Char} (hold : Solid old) (new line : List Char) :
    LineRenamed old new line (renameLine old new line) := by
  obtain ⟨lead, rest, hdefines⟩ | hnot := defines_cases old line
  · rw [hdefines.renameLine hold, hdefines.parts]
    obtain ⟨gaps, more, hgaps, rfl⟩ := opens_iff.mp hdefines.opens
    exact .definition hdefines.isLead hgaps
  · rw [renameLine_of_not hnot]
    exact .other hnot

/-- A rename of a valid name in one line renames, each by itself, the lines that define it. Where
the name stands in such a line is no matter of choice. -/
theorem rename_line_by_line {old : String} (hold : Module.checkName (.str old) = .ok old)
    (hfeed : '\n' ∉ old.toList) (code new : String) :
    (∃ renamed, List.Forall₂ (LineRenamed old.toList new.toList) (lines code) renamed ∧
      rename code old new = ofLines renamed) ∧
    ∀ line lead rest lead' rest', Defines old.toList line lead rest →
      Defines old.toList line lead' rest' → lead = lead' ∧ rest = rest' := by
  have hsolid : Solid old.toList := (Module.checkName_eq_ok.mp hold).2.solid
  refine ⟨⟨_, ?_, rename_eq_ofLines hsolid hfeed code new⟩, ?_⟩
  · rw [List.forall₂_map_right_iff]
    exact List.forall₂_same.mpr fun line _ => lineRenamed_renameLine hsolid new.toList line
  · intro line lead rest lead' rest' h h'
    exact h.unique hsolid h'

/-- A name that starts with a blank takes one of the two blanks of the first line, and finds none
to take in the second. -/
theorem rename_line_by_line_blank :
    Module.checkName (.str " f") = .ok " f" ∧ '\n' ∉ " f".toList ∧
      (∃ renamed,
        List.Forall₂ (LineRenamed " f".toList "g".toList) (lines "def  f(x)\ndef f(x)") renamed ∧
          rename "def  f(x)\ndef f(x)" " f" "g" = ofLines renamed) ∧
      rename "def  f(x)\ndef f(x)" " f" "g" = "def g(x)\ndef f(x)" := by
  have hvalid : Module.checkName (.str " f") = .ok " f" :=
    Module.checkName_eq_ok.mpr ⟨rfl, by decide⟩
  exact ⟨hvalid, by decide, (rename_line_by_line hvalid (by decide) _ _).1, by decide +kernel⟩

end BlockWorkbench.Handler
