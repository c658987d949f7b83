import BlockWorkbench.Proofs.Script.Compiling
import BlockWorkbench.Proofs.Script.RegistrationCall
import BlockWorkbench.Proofs.Script.RegistrationLine

/-!
Scripts made of registrations, each with the code of its module behind it. If the code of every
module is made of statements, so is the whole: the calls that register the modules and the
statements of their code. It compiles exactly if the code of every module does.
-/

namespace BlockWorkbench.Script

open BlockWorkbench.Graph (registrationText)

/-- A module as it stands in a script: what it reads, and its code, which is made of statements. -/
structure Draft where
  module : Module
  sources : List InputSource
  code : String
  program : Program
  named : module.name ≠ ""
  sourcesNamed : ∀ source ∈ sources, Named source
  plain : '\x00' ∉ code.toList
  parses : parseProgram code = .ok program

namespace Draft

def text (p : Draft) : String := registrationText p.module p.sources ++ p.code ++ "\n"

def unit (p : Draft) : Program := .expr (registrationCall p.module p.sources) :: p.program

end Draft

/-- A module whose code compiles by itself. -/
structure Part where
  module : Module
  sources : List InputSource
  code : String
  program : Program
  named : module.name ≠ ""
  sourcesNamed : ∀ source ∈ sources, Named source
  compiles : compile code = .ok program

namespace Part

def text (p : Part) : String := registrationText p.module p.sources ++ p.code ++ "\n"

def unit (p : Part) : Program := .expr (registrationCall p.module p.sources) :: p.program

def draft (p : Part) : Draft :=
  { p with
    plain := by
      obtain ⟨hplain, -, -⟩ := compile_eq_ok.mp p.compiles
      rwa [String.contains_char_eq, decide_eq_false_iff_not] at hplain
    parses := (compile_eq_ok.mp p.compiles).2.1 }

end Part

theorem layout_lowered (blocks : List Depth) (lines : List Line) (d : Nat) :
    layout blocks (lines.map (·.lowered d)) = layout blocks lines :=
  map_token_arrange blocks 0 d lines

/-- Whole lines that make up a program which may stand behind any other. -/
structure Stands (cs : List Char) (lines : List Line) (program : Program) : Prop where
  whole : WholeLines cs lines
  parse : parseAll (16 * (layout [(0, 0)] lines).length + 16)
    (2 * (layout [(0, 0)] lines).length + 2) (layout [(0, 0)] lines) = .ok program
  leftEdge : ∀ line ∈ lines.head?, line.column = 0 ∧ line.blanks = 0
  starts : ¬ Continues (layout [(0, 0)] lines)

theorem Stands.nil : Stands [] [] [] where
  whole := .nil
  parse := rfl
  leftEdge := by simp
  starts := by simp [layout_nil, Continues]

theorem WholeLines.emptyLine {cs : List Char} {lines : List Line} (h : WholeLines cs lines)
    {extra : List Char} (hextra : extra = [] ∨ extra = ['\n']) : WholeLines (cs ++ extra) lines := by
  have hempty : WholeLines extra [] := by
    obtain rfl | rfl := hextra
    · exact .nil
    · exact ⟨⟨rfl, rfl, rfl⟩, rfl⟩
  obtain ⟨d, hd⟩ := h.append hempty
  simpa using hd

theorem WholeLines.closeLastLine {cs : List Char} {lines : List Line} (h : WholeLines cs lines) :
    WholeLines (closeLastLine cs) lines := by
  unfold Script.closeLastLine
  split_ifs
  · exact h
  · exact h.emptyLine (.inr rfl)

theorem length_inputsTokens (sources : List InputSource) :
    sources.length < (inputsTokens sources).length := by
  induction sources with
  | nil => simp [inputsTokens]
  | cons source rest ih =>
      cases rest with
      | nil => cases source <;> simp [inputsTokens, inputTokens]
      | cons next rest =>
          simp only [inputsTokens, List.length_cons, List.length_append] at ih ⊢
          omega

theorem length_registrationTokens (m : Module) (sources : List InputSource) :
    sources.length + 16 < (registrationTokens m sources).length := by
  have hinputs := length_inputsTokens sources
  simp only [registrationTokens, List.length_append, List.length_cons, List.length_nil]
  omega

theorem parseAll_registration {exprFuel fuel : Nat} {m : Module} {sources : List InputSource}
    (hexpr : sources.length + 72 ≤ exprFuel) {ts : List Token} {program : Program}
    (h : parseAll exprFuel fuel ts = .ok program) :
    parseAll exprFuel (fuel + 1) (registrationTokens m sources ++ .newline :: ts) =
      .ok (.expr (registrationCall m sources) :: program) := by
  rw [parseAll, parseStmt_registration fuel m sources hexpr ts]
  · simp [h]
  · simp

/-- A registration and the code of its module stand before whatever stands by itself. -/
theorem Stands.draft {cs extra : List Char} {lines : List Line} {program : Program}
    (h : Stands cs lines program) (p : Draft) (hextra : extra = [] ∨ extra = ['\n']) :
    ∃ lines', Stands ((registrationText p.module p.sources).toList ++
      (closeLastLine (plainLineEnds p.code.toList) ++ extra ++ cs)) lines' (p.unit ++ program) := by
  obtain ⟨placed, hplaced, hline⟩ := wholeLines_registrationText p.named p.sourcesNamed
  obtain ⟨codeLines, hcode⟩ := parseProgram_eq_ok.mp p.parses
  obtain ⟨d, hmore⟩ := (hcode.whole.emptyLine hextra).append h.whole
  obtain ⟨d', hall⟩ := hline.append hmore
  have hlayout : layout [(0, 0)] ([⟨0, 0, placed⟩] ++
      (codeLines ++ lines.map (·.lowered d)).map (·.lowered d')) =
        registrationTokens p.module p.sources ++
          .newline :: (layout [(0, 0)] codeLines ++ layout [(0, 0)] lines) := by
    have hindent : indentation ⟨0, 0, placed⟩ [(0, 0)] = ([], .ok [(0, 0)]) := rfl
    have hedge : ∀ line ∈ (lines.map (·.lowered d)).head?, line.column = 0 ∧ line.blanks = 0 := by
      intro line hline
      rw [List.head?_map, Option.mem_def, Option.map_eq_some_iff] at hline
      obtain ⟨first, hfirst, rfl⟩ := hline
      exact h.leftEdge first hfirst
    rw [List.singleton_append, layout_cons hindent, layout_lowered,
      layout_append .root hcode.sound hedge, layout_lowered, hplaced, List.nil_append]
  refine ⟨_, hall, ?_, ?_, ?_⟩
  · rw [hlayout]
    have hlength := length_registrationTokens p.module p.sources
    have hcodeParse := hcode.parse
    have hparse := h.parse
    have hstarts := h.starts
    -- The fuel for the whole is counted in tokens, so it is enough for either part.
    generalize layout [(0, 0)] codeLines = c at hcodeParse ⊢
    generalize layout [(0, 0)] lines = r at hparse hstarts ⊢
    refine parseAll_registration ?_ (parseAll_mono le_rfl ?_
      (parseAll_append ?_ hcodeParse hstarts (parseAll_mono ?_ le_rfl hparse)))
    all_goals
      simp only [List.length_append, List.length_cons]
      omega
  · simp
  · rw [hlayout]
    simp [Continues, registrationTokens]

/-- The text of drafts, with plain line ends, stands by itself. -/
theorem stands_drafts (drafts : List Draft) :
    ∃ lines, Stands (plainLineEnds (String.join (drafts.map Draft.text)).toList) lines
      (drafts.flatMap Draft.unit) := by
  induction drafts with
  | nil => exact ⟨[], .nil⟩
  | cons p rest ih =>
      obtain ⟨lines, hrest⟩ := ih
      obtain ⟨extra, hextra, hcode⟩ := plainLineEnds_lineFeed p.code.toList
        (String.join (rest.map Draft.text)).toList
      have hreturn : '\r' ∉ (registrationText p.module p.sources).toList := fun h => by
        simpa using printable_registrationText p.module p.sources '\r' h
      have htext : (String.join ((p :: rest).map Draft.text)).toList =
          (registrationText p.module p.sources).toList ++
            (p.code.toList ++ '\n' :: (String.join (rest.map Draft.text)).toList) := by
        simp [String.join_cons, Draft.text]
      rw [htext, plainLineEnds_append (.inl fun h => hreturn (List.mem_of_getLast? h)),
        plainLineEnds_eq_self hreturn, hcode, List.flatMap_cons]
      exact hrest.draft p hextra

theorem arePlaced_append (program rest : Program) :
    arePlaced false false (program ++ rest) =
      (arePlaced false false program && arePlaced false false rest) := by
  induction program with
  | nil => rfl
  | cons s program ih => rw [List.cons_append, arePlaced, ih, arePlaced, Bool.and_assoc]

theorem arePlaced_drafts (drafts : List Draft) :
    arePlaced false false (drafts.flatMap Draft.unit) = true ↔
      ∀ p ∈ drafts, arePlaced false false p.program = true := by
  induction drafts with
  | nil => simp [arePlaced]
  | cons p rest ih =>
      have hunit : arePlaced false false p.unit = arePlaced false false p.program := rfl
      rw [List.flatMap_cons, arePlaced_append, hunit, Bool.and_eq_true, ih, List.forall_mem_cons]

theorem no_null_drafts (drafts : List Draft) :
    '\x00' ∉ (String.join (drafts.map Draft.text)).toList := by
  induction drafts with
  | nil => simp
  | cons p rest ih =>
      have hcode := p.plain
      have hregistration : '\x00' ∉ (registrationText p.module p.sources).toList := fun h => by
        simpa using printable_registrationText p.module p.sources '\x00' h
      simp only [List.map_cons, String.join_cons, Draft.text, String.toList_append, List.mem_append]
      simpa [hregistration, hcode] using ih

/-- Registrations with the code of their modules are a script exactly if all that code is, and its
unit is made of theirs. -/
theorem compile_drafts (drafts : List Draft) {program : Program} :
    compile (String.join (drafts.map Draft.text)) = .ok program ↔
      program = drafts.flatMap Draft.unit ∧
        ∀ p ∈ drafts, arePlaced false false p.program = true := by
  obtain ⟨lines, h⟩ := stands_drafts drafts
  have hnull : (String.join (drafts.map Draft.text)).contains '\x00' = false := by
    rw [String.contains_char_eq, decide_eq_false_iff_not]
    exact no_null_drafts drafts
  have hparse := parseProgram_eq_ok.mpr ⟨lines, h.whole.closeLastLine, h.parse⟩
  rw [compile_eq_ok, hparse, Except.ok.injEq, ← arePlaced_drafts]
  constructor
  · rintro ⟨-, rfl, hplaced⟩
    exact ⟨rfl, hplaced⟩
  · rintro ⟨rfl, hplaced⟩
    exact ⟨hnull, rfl, hplaced⟩

/-- Registrations with code that compiles are a script, whose unit is made of theirs. -/
theorem compile_parts (parts : List Part) :
    compile (String.join (parts.map Part.text)) = .ok (parts.flatMap Part.unit) := by
  have htext : parts.map Part.text = (parts.map Part.draft).map Draft.text := by
    rw [List.map_map]
    rfl
  rw [htext, compile_drafts, List.flatMap_map]
  refine ⟨rfl, fun p hp => ?_⟩
  obtain ⟨part, -, rfl⟩ := List.mem_map.mp hp
  exact (compile_eq_ok.mp part.compiles).2.2

end BlockWorkbench.Script
