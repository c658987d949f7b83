import BlockWorkbench.Script.Engine
import BlockWorkbench.Proofs.Script.Layout
import BlockWorkbench.Proofs.Script.Statements

/-!
Scripts that are put together from texts which compile by themselves. Their tokens follow each
other, and so do their statements.
-/

namespace BlockWorkbench.Script

theorem parseAll_mono {exprFuel exprFuel' fuel fuel' : Nat} (hexpr : exprFuel ≤ exprFuel')
    (hfuel : fuel ≤ fuel') {ts : List Token} {program : Program}
    (h : parseAll exprFuel fuel ts = .ok program) : parseAll exprFuel' fuel' ts = .ok program := by
  induction fuel generalizing fuel' ts program with
  | zero =>
      cases ts with
      | nil => simpa [parseAll] using h
      | cons => cases h
  | succ fuel ih =>
      cases ts with
      | nil => simpa [parseAll] using h
      | cons t ts =>
          obtain ⟨fuel', rfl⟩ : ∃ f, fuel' = f + 1 := ⟨fuel' - 1, by omega⟩
          simp only [parseAll, bind_eq_ok, Prod.exists, pure_eq_ok, Except.ok.injEq] at h ⊢
          obtain ⟨s, rest, hs, more, hmore, rfl⟩ := h
          obtain ⟨used, -, hused, hs⟩ := (stmtsCarry hexpr hfuel).stmt hs
          exact ⟨s, rest, hused ▸ hs (.inl rfl), more, ih (Nat.le_of_succ_le_succ hfuel) hmore, rfl⟩

/-- The tokens of a program end with the end of a line or of a block. -/
theorem ended_of_parseAll {exprFuel fuel : Nat} {ts : List Token} {program : Program}
    (h : parseAll exprFuel fuel ts = .ok program) : ts = [] ∨ Ended ts := by
  induction fuel generalizing ts program with
  | zero =>
      cases ts with
      | nil => exact .inl rfl
      | cons => cases h
  | succ fuel ih =>
      cases ts with
      | nil => exact .inl rfl
      | cons t ts =>
          simp only [parseAll, bind_eq_ok, Prod.exists] at h
          obtain ⟨s, rest, hs, more, hmore, -⟩ := h
          obtain ⟨used, hended, hused, -⟩ := (stmtsCarry le_rfl le_rfl).stmt hs
          rw [hused]
          exact .inr (hended.append_else (ih hmore))

/-- The statements of two texts follow each other, unless the second one goes on with a
statement of the first. -/
theorem parseAll_append {exprFuel exprFuel' fuel fuel' : Nat} (hexpr : exprFuel ≤ exprFuel')
    {ts more : List Token} {program rest : Program} (h : parseAll exprFuel fuel ts = .ok program)
    (hmore : ¬ Continues more) (hrest : parseAll exprFuel' fuel' more = .ok rest) :
    parseAll exprFuel' (fuel + fuel') (ts ++ more) = .ok (program ++ rest) := by
  induction fuel generalizing ts program with
  | zero =>
      cases ts with
      | nil =>
          cases h
          exact parseAll_mono le_rfl (Nat.le_add_left fuel' 0) hrest
      | cons => cases h
  | succ fuel ih =>
      cases ts with
      | nil =>
          cases h
          exact parseAll_mono le_rfl (Nat.le_add_left fuel' _) hrest
      | cons t ts =>
          simp only [parseAll, bind_eq_ok, Prod.exists, pure_eq_ok, Except.ok.injEq] at h
          obtain ⟨s, after, hs, others, hothers, rfl⟩ := h
          obtain ⟨used, -, hused, hs⟩ :=
            (stmtsCarry hexpr (Nat.le_add_right (fuel + 1) fuel')).stmt hs
          have hfollows : Follows after (after ++ more) := by
            cases after with
            | nil => exact .inr ⟨by simp [Continues], hmore⟩
            | cons => exact .inl rfl
          have hparse := hs hfollows
          rw [← List.append_assoc, ← hused, Nat.add_right_comm, List.cons_append] at hparse
          rw [List.cons_append, Nat.add_right_comm, parseAll]
          · simp [hparse, ih hothers]
          · simp

theorem compile_eq_ok {source : String} {program : Program} :
    compile source = .ok program ↔ source.contains '\x00' = false ∧
      parseProgram source = .ok program ∧ arePlaced false false program = true := by
  unfold compile
  cases hnull : source.contains '\x00' with
  | true => simp
  | false =>
      cases hparse : parseProgram source with
      | error => simp
      | ok found =>
          simp only [Bool.false_eq_true, if_false, true_and]
          constructor
          · intro h
            split_ifs at h with hplaced
            cases h
            exact ⟨rfl, hplaced⟩
          · rintro ⟨h, hplaced⟩
            cases h
            rw [if_pos hplaced]

/-- A text is what its tokens make up. -/
theorem parseProgram_of_tokens {source : String} {program : Program} (tokens : List Token)
    (htokens : (tokenize source).map (·.token) = tokens)
    (hparse : parseAll (16 * tokens.length + 16) (2 * tokens.length + 2) tokens = .ok program) :
    parseProgram source = .ok program := by
  have hlength : (tokenize source).length = tokens.length := by
    rw [← htokens, List.length_map]
  rw [parseProgram, mapError_eq_ok, htokens, hlength, hparse]

theorem compile_of_tokens {source : String} {program : Program} (tokens : List Token)
    (hnull : '\x00' ∉ source.toList) (htokens : (tokenize source).map (·.token) = tokens)
    (hparse : parseAll (16 * tokens.length + 16) (2 * tokens.length + 2) tokens = .ok program)
    (hplaced : arePlaced false false program = true) : compile source = .ok program :=
  compile_eq_ok.mpr ⟨by simpa using hnull, parseProgram_of_tokens tokens htokens hparse, hplaced⟩

theorem compileSource_str {text : String} {program : Program} (h : compile text = .ok program) :
    compileSource (.str text) = .ok program := by
  simp only [compileSource, h]

/-- Tokens of a text that broke off end with a fault. -/
theorem arrange_broken (blocks : List Depth) (row : Nat) {lines : List Line} (h : lines ≠ []) :
    ∃ f, ((arrange true blocks row lines).map (·.token)).getLast? = some (.fault f) := by
  induction lines generalizing blocks row with
  | nil => exact absurd rfl h
  | cons line rest ih =>
      simp only [arrange]
      split
      · rename_i ts f _
        exact ⟨f, by simp⟩
      · rename_i ts blocks' _
        cases rest with
        | nil => exact ⟨.malformed, by simp⟩
        | cons next rest =>
            obtain ⟨f, hf⟩ := ih blocks' line.lastRow (by simp)
            exact ⟨f, by simp [List.getLast?_append, List.getLast?_cons, hf]⟩

theorem Ended.sound {ts : List Token} (h : ts = [] ∨ Ended ts) : Sound ts := by
  intro f hf
  obtain rfl | h | h := h
  · cases hf
  · cases h.symm.trans hf
  · cases h.symm.trans hf

/-- Whole lines that make up a program. -/
structure Parses (cs : List Char) (lines : List Line) (program : Program) : Prop where
  whole : WholeLines (closeLastLine (plainLineEnds cs)) lines
  parse : parseAll (16 * (layout [(0, 0)] lines).length + 16)
    (2 * (layout [(0, 0)] lines).length + 2) (layout [(0, 0)] lines) = .ok program

theorem Parses.sound {cs : List Char} {lines : List Line} {program : Program}
    (h : Parses cs lines program) : Sound (layout [(0, 0)] lines) :=
  Ended.sound (ended_of_parseAll h.parse)

theorem finish_broken {s : Scanner} {lines : List Line} (h : s.finish = (lines, true)) :
    lines ≠ [] := by
  unfold Scanner.finish at h
  split at h
  · split_ifs at h
    · cases h
    · cases h
      simp
  · cases h
    simp

/-- A text is a program exactly if it is made of whole lines that make one up. -/
theorem parseProgram_eq_ok {source : String} {program : Program} :
    parseProgram source = .ok program ↔ ∃ lines, Parses source.toList lines program := by
  constructor
  · intro h
    have hparse := mapError_eq_ok.mp h
    cases hscan : scanLines source.toList with | mk lines broken =>
    cases broken with
    | true =>
        obtain ⟨f, hf⟩ := arrange_broken [(0, 0)] 0 (finish_broken hscan)
        have hsound := Ended.sound (ended_of_parseAll hparse) f
        rw [tokenize, hscan] at hsound
        exact absurd hf hsound
    | false =>
        obtain ⟨plain, hwhole, rfl⟩ := wholeLines_of_scanLines hscan
        have htokens : (tokenize source).map (·.token) = layout [(0, 0)] plain := by
          rw [tokenize, hscan]
          exact map_token_arrange ..
        have hlength : (tokenize source).length = (layout [(0, 0)] plain).length := by
          rw [← htokens, List.length_map]
        exact ⟨plain, hwhole, by rwa [htokens, hlength] at hparse⟩
  · rintro ⟨lines, hwhole, hparse⟩
    have htokens : (tokenize source).map (·.token) = layout [(0, 0)] lines := by
      rw [tokenize, scanLines_of_wholeLines hwhole]
      exact map_token_arrange ..
    exact parseProgram_of_tokens _ htokens hparse

end BlockWorkbench.Script
