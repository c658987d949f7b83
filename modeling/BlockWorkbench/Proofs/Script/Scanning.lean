import BlockWorkbench.Script.Lexer
import BlockWorkbench.Proofs.Outcome

/-!
What the scanner finds in a text that follows another. A text that ends with a finished line leaves
nothing behind but its lines, so the lines of both texts together are those of the one followed by
those of the other; only the rows are counted on.
-/

namespace BlockWorkbench.Script

/-- A text is empty or ends with a line feed once its last line is closed. -/
theorem closeLastLine_cases (cs : List Char) :
    closeLastLine cs = [] ∨ ∃ ds, closeLastLine cs = ds ++ ['\n'] := by
  unfold closeLastLine
  split_ifs with h
  · rw [Bool.or_eq_true, List.isEmpty_iff, decide_eq_true_eq, List.getLast?_eq_some_iff] at h
    exact h
  · exact .inr ⟨cs, rfl⟩

/-- Line ends are made plain one text after another, unless a line end is cut in two. -/
theorem plainLineEnds_append {cs ds : List Char}
    (h : cs.getLast? ≠ some '\r' ∨ ds.head? ≠ some '\n') :
    plainLineEnds (cs ++ ds) = plainLineEnds cs ++ plainLineEnds ds := by
  fun_induction plainLineEnds cs with
  | case1 => rfl
  | case2 rest ih =>
      cases rest with
      | nil => simp [plainLineEnds]
      | cons c rest => simpa [plainLineEnds] using ih (by simpa using h)
  | case3 rest hrest ih =>
      have hends : ∀ more, rest ++ ds ≠ '\n' :: more := by
        intro more hmore
        cases rest with
        | nil => simp_all
        | cons c rest =>
            cases hmore
            exact hrest rest rfl
      have hlast : rest.getLast? ≠ some '\r' ∨ ds.head? ≠ some '\n' := by
        cases rest with
        | nil => simp
        | cons c rest => simpa using h
      rw [List.cons_append, plainLineEnds.eq_3 _ hends, ih hlast, List.cons_append]
  | case4 c rest hc hc' ih =>
      have hlast : rest.getLast? ≠ some '\r' ∨ ds.head? ≠ some '\n' := by
        cases rest with
        | nil => simp
        | cons d rest => simpa using h
      rw [List.cons_append, plainLineEnds.eq_4 c _ (by simp_all) (by simp_all), ih hlast,
        List.cons_append]

theorem plainLineEnds_eq_self {cs : List Char} (h : '\r' ∉ cs) : plainLineEnds cs = cs := by
  fun_induction plainLineEnds cs with
  | case1 => rfl
  | case2 | case3 => simp at h
  | case4 c rest _ _ ih => rw [ih fun hr => h (List.mem_cons_of_mem c hr)]

/-- With a line feed behind it, a text is closed, and has at most an empty line more. -/
theorem plainLineEnds_lineFeed (cs ds : List Char) :
    ∃ extra, (extra = [] ∨ extra = ['\n']) ∧
      plainLineEnds (cs ++ '\n' :: ds) =
        closeLastLine (plainLineEnds cs) ++ extra ++ plainLineEnds ds := by
  by_cases hlast : cs.getLast? = some '\r'
  · obtain ⟨init, rfl⟩ := List.getLast?_eq_some_iff.mp hlast
    have hcs : plainLineEnds (init ++ ['\r']) = plainLineEnds init ++ ['\n'] :=
      plainLineEnds_append (.inr (by simp))
    refine ⟨[], .inl rfl, ?_⟩
    rw [List.append_assoc, plainLineEnds_append (.inr (by simp)), hcs]
    simp [closeLastLine, plainLineEnds]
  · have happend : plainLineEnds (cs ++ '\n' :: ds) =
        plainLineEnds cs ++ plainLineEnds ('\n' :: ds) := plainLineEnds_append (.inl hlast)
    have hds : plainLineEnds ('\n' :: ds) = '\n' :: plainLineEnds ds := by simp [plainLineEnds]
    rw [happend, hds, closeLastLine]
    split_ifs
    · exact ⟨['\n'], .inr rfl, by simp⟩
    · exact ⟨[], .inl rfl, by simp⟩

/-- A token so many rows further down. -/
def Placed.lowered (d : Nat) (t : Placed) : Placed := { t with row := t.row + d }

def Line.lowered (d : Nat) (l : Line) : Line := { l with tokens := l.tokens.map (·.lowered d) }

namespace Scanner

/-- The scanner with the lines `above` before its own, and so many rows further down. -/
def below (above : List Line) (d : Nat) (s : Scanner) : Scanner :=
  { s with
    row := s.row + d
    tokens := s.tokens.map (·.lowered d)
    lines := s.lines.map (·.lowered d) ++ above }

section Below

variable (above : List Line) (d : Nat) (s : Scanner)

theorem emit_below (ts : List Token) :
    (s.below above d).emit ts = (s.emit ts).below above d := by
  simp [emit, below, Placed.lowered, Function.comp_def]

theorem endLine_below : (s.below above d).endLine = s.endLine.below above d := by
  by_cases hbrackets : s.brackets.isEmpty
  · by_cases htokens : s.tokens.isEmpty
    · simp [endLine, below, hbrackets, htokens]
    · simp [endLine, below, hbrackets, htokens, currentLine, Line.lowered]
  · simp [endLine, below, hbrackets]

theorem begin_below (c : Char) : (s.below above d).begin c = (s.begin c).below above d := by
  unfold begin
  rw [endLine_below]
  simp only [apply_ite (below above d)]
  rfl

theorem endWord_below (cs : List Char) :
    (s.below above d).endWord cs = (s.endWord cs).below above d := by
  simp only [endWord, emit_below, apply_ite (below above d)]
  rfl

theorem endNumber_below (cs : List Char) :
    (s.below above d).endNumber cs = (s.endNumber cs).below above d := by
  unfold endNumber
  split
  · exact emit_below ..
  · rfl

theorem brackets_below : (s.below above d).brackets = s.brackets := rfl

theorem breakOff_below : (s.below above d).breakOff = s.breakOff.below above d := rfl

theorem endOperator_below (cs : List Char) :
    (s.below above d).endOperator cs = (s.endOperator cs).below above d := by
  simp only [endOperator, brackets_below, breakOff_below, emit_below]
  split
  · split
    · split <;> rfl
    · split
      · split <;> rfl
      · split
        · split <;> rfl
        · rfl
  · rfl

theorem endString_below (raw : Bool) (cs : List Char) :
    (s.below above d).endString raw cs = (s.endString raw cs).below above d := by
  unfold endString
  split
  · exact emit_below ..
  · rfl

theorem inShort_below (quote : Char) (raw : Bool) (cs : List Char) (escaped : Bool) (c : Char) :
    (s.below above d).inShort quote raw cs escaped c =
      (s.inShort quote raw cs escaped c).below above d := by
  simp only [inShort, endString_below, apply_ite (below above d)]
  rfl

theorem inLong_below (quote : Char) (raw : Bool) (cs : List Char) (escaped : Bool)
    (closing : Nat) (c : Char) :
    (s.below above d).inLong quote raw cs escaped closing c =
      (s.inLong quote raw cs escaped closing c).below above d := by
  simp only [inLong, endString_below, apply_ite (below above d)]
  rfl

theorem mode_below : (s.below above d).mode = s.mode := rfl

theorem resume_below (c : Char) : (s.below above d).resume c = (s.resume c).below above d := by
  rw [resume, resume, mode_below, begin_below]
  cases s.mode <;> rfl

theorem take_below (c : Char) : (s.below above d).take c = (s.take c).below above d := by
  rw [take, take, mode_below]
  cases s.mode with
  | lineStart column blanks =>
      simp only [← begin_below, apply_ite (below above d)]
      rfl
  | between => exact begin_below ..
  | comment =>
      simp only [endLine_below, apply_ite (below above d)]
  | continued =>
      simp only [breakOff_below, apply_ite (below above d)]
      rfl
  | word cs =>
      simp only [endWord_below, resume_below, apply_ite (below above d)]
      cases stringMark? cs <;> rfl
  | number cs =>
      simp only [endNumber_below, resume_below, breakOff_below, apply_ite (below above d)]
      rfl
  | operator cs =>
      simp only [endOperator_below, resume_below, apply_ite (below above d)]
      rfl
  | opened quote raw =>
      simp only [inShort_below, apply_ite (below above d)]
      rfl
  | openedTwice quote raw =>
      simp only [emit_below, begin_below, apply_ite (below above d)]
      rfl
  | short quote raw cs escaped => exact inShort_below ..
  | long quote raw cs escaped closing => exact inLong_below ..
  | broken => rfl

theorem step_below (c : Char) : (s.below above d).step c = (s.step c).below above d := by
  simp only [step, take_below]
  by_cases hc : c = '\n'
  · simp [hc, below, Nat.add_right_comm]
  · simp [hc]

theorem foldl_step_below (cs : List Char) :
    cs.foldl step (s.below above d) = (cs.foldl step s).below above d := by
  induction cs generalizing s with
  | nil => rfl
  | cons c rest ih => rw [List.foldl_cons, step_below, ih, List.foldl_cons]

end Below

/-- Two scanners are alike if they differ at most in the indentation of a line that is over. -/
inductive Alike : Scanner → Scanner → Prop
  | same (s : Scanner) : Alike s s
  | lineStart {c b : Nat} (s : Scanner) (column blanks : Nat) (h : s.mode = .lineStart c b) :
      Alike s { s with column, blanks }

theorem Alike.step {s t : Scanner} (h : Alike s t) (c : Char) : Alike (s.step c) (t.step c) := by
  cases h with
  | same => exact .same _
  | @lineStart c' b' s column blanks h =>
      obtain ⟨mode, brackets, column', blanks', row, tokens, lines⟩ := s
      cases h
      simp only [Scanner.step, take]
      split_ifs
      all_goals first
        | exact .same _
        | exact .lineStart _ column blanks rfl

theorem Alike.foldl_step {s t : Scanner} (h : Alike s t) (cs : List Char) :
    Alike (cs.foldl Scanner.step s) (cs.foldl Scanner.step t) := by
  induction cs generalizing s t with
  | nil => exact h
  | cons c rest ih => exact ih (h.step c)

/-- A scanner between two lines. -/
structure AtRest (s : Scanner) : Prop where
  mode : s.mode = .lineStart 0 0
  brackets : s.brackets = []
  tokens : s.tokens = []

theorem Alike.atRest {s t : Scanner} (h : Alike s t) (hs : s.AtRest) :
    t.AtRest ∧ t.lines = s.lines ∧ t.row = s.row := by
  cases h with
  | same => exact ⟨hs, rfl, rfl⟩
  | lineStart => exact ⟨⟨hs.mode, hs.brackets, hs.tokens⟩, rfl, rfl⟩

theorem AtRest.below {s : Scanner} (h : s.AtRest) (above : List Line) (d : Nat) :
    (s.below above d).AtRest :=
  ⟨h.mode, h.brackets, by simp [Scanner.below, h.tokens]⟩

/-- A scanner at rest is at the start of a text, but for what it has read. -/
theorem AtRest.alike {s : Scanner} (h : s.AtRest) :
    Alike (({ row := 0 } : Scanner).below s.lines s.row) s := by
  obtain ⟨mode, brackets, column, blanks, row, tokens, lines⟩ := s
  obtain ⟨rfl, rfl, rfl⟩ := h
  simpa [Scanner.below] using
    Alike.lineStart (c := 0) (b := 0) ⟨.lineStart 0 0, [], 0, 0, row, [], lines⟩ column blanks rfl

/-- A scanner that is not behind the blanks of a line. -/
def Unindented (s : Scanner) : Prop := ∀ c b, s.mode = .lineStart c b → c = 0 ∧ b = 0

theorem unindented_endLine (s : Scanner) : s.endLine.Unindented := by
  intro c b h
  unfold endLine at h
  split_ifs at h <;> cases h <;> exact ⟨rfl, rfl⟩

theorem unindented_resume (s : Scanner) : (s.resume '\n').Unindented := by
  unfold resume
  split
  · rename_i hs
    intro c b h
    cases hs.symm.trans h
  · exact unindented_endLine s

theorem unindented_endString (s : Scanner) (raw : Bool) (cs : List Char) :
    (s.endString raw cs).Unindented := by
  intro c b h
  unfold endString at h
  split at h <;> cases h

theorem unindented_inShort (s : Scanner) (quote : Char) (raw : Bool) (cs : List Char)
    (escaped : Bool) (c : Char) : (s.inShort quote raw cs escaped c).Unindented := by
  unfold inShort
  split_ifs
  all_goals first
    | exact unindented_endString _ _ _
    | intro c b h
      cases h

theorem unindented_inLong (s : Scanner) (quote : Char) (raw : Bool) (cs : List Char)
    (escaped : Bool) (closing : Nat) (c : Char) :
    (s.inLong quote raw cs escaped closing c).Unindented := by
  unfold inLong
  split_ifs
  all_goals first
    | exact unindented_endString _ _ _
    | intro c b h
      cases h

/-- A line feed leaves no indentation behind. -/
theorem unindented_take (s : Scanner) : (s.take '\n').Unindented := by
  unfold take
  split
  case h_1 => intro c b h; cases h; exact ⟨rfl, rfl⟩
  case h_2 | h_3 => exact unindented_endLine s
  case h_4 => intro c b h; cases h
  case h_5 cs _ =>
    split_ifs
    · intro c b h; cases h
    · split
      · intro c b h; cases h
      · exact unindented_resume _
    · exact unindented_resume _
  case h_6 | h_7 =>
    split_ifs
    · intro c b h; cases h
    · intro c b h; cases h
    · exact unindented_resume _
  case h_8 =>
    split_ifs
    · intro c b h; cases h
    · exact unindented_inShort _ _ _ _ _ _
  case h_9 =>
    split_ifs
    · intro c b h; cases h
    · exact unindented_endLine _
  case h_10 => exact unindented_inShort _ _ _ _ _ _
  case h_11 => exact unindented_inLong _ _ _ _ _ _ _
  case h_12 hs => intro c b h; cases hs.symm.trans h

theorem unindented_step (s : Scanner) : (s.step '\n').Unindented := by
  simpa [step, Unindented] using unindented_take s

/-- A text with a line feed behind its last line ends at rest if nothing of it broke off. -/
theorem atRest_of_finish {cs : List Char} {s : Scanner} (hs : s.AtRest) {lines : List Line}
    (h : ((closeLastLine cs).foldl step s).finish = (lines, false)) :
    ((closeLastLine cs).foldl step s).AtRest ∧
      ((closeLastLine cs).foldl step s).lines.reverse = lines := by
  have hunindented : ((closeLastLine cs).foldl step s).Unindented := by
    obtain hcs | ⟨ds, hds⟩ := closeLastLine_cases cs
    · rw [hcs]
      intro c b hmode
      cases hs.mode.symm.trans hmode
      exact ⟨rfl, rfl⟩
    · rw [hds, List.foldl_append]
      exact unindented_step _
  unfold finish at h
  split at h
  · rename_i c b hmode
    split_ifs at h with hempty
    · cases h
      rw [Bool.and_eq_true, List.isEmpty_iff, List.isEmpty_iff] at hempty
      obtain ⟨rfl, rfl⟩ := hunindented c b hmode
      exact ⟨⟨hmode, hempty.1, hempty.2⟩, rfl⟩
    · cases h
  · cases h

end Scanner

/-- The text is made of whole lines. Their rows are counted from zero. -/
structure WholeLines (cs : List Char) (lines : List Line) : Prop where
  atRest : (cs.foldl Scanner.step { row := 0 }).AtRest
  lines : (cs.foldl Scanner.step { row := 0 }).lines.reverse = lines

theorem WholeLines.nil : WholeLines [] [] := ⟨⟨rfl, rfl, rfl⟩, rfl⟩

/-- Behind whole lines the scanner finds in a text what it finds in the text alone. -/
theorem WholeLines.append {cs ds : List Char} {lines more : List Line} (h : WholeLines cs lines)
    (h' : WholeLines ds more) :
    ∃ d, WholeLines (cs ++ ds) (lines ++ more.map (·.lowered d)) := by
  have halike := h.atRest.alike.foldl_step ds
  rw [Scanner.foldl_step_below] at halike
  obtain ⟨hrest, hlines, -⟩ := halike.atRest (h'.atRest.below _ _)
  refine ⟨(cs.foldl Scanner.step { row := 0 }).row, ⟨?_, ?_⟩⟩
  · rwa [List.foldl_append]
  · rw [List.foldl_append, hlines, ← h.lines, ← h'.lines]
    simp [Scanner.below]

/-- The lines of a script that is cut into tokens as a whole. -/
theorem wholeLines_of_scanLines {cs : List Char} {lines : List Line}
    (h : scanLines cs = (lines, false)) :
    ∃ plain, WholeLines (closeLastLine (plainLineEnds cs)) plain ∧
      lines = plain.map (·.lowered 1) := by
  have hstart : ({} : Scanner) = ({ row := 0 } : Scanner).below [] 1 := rfl
  obtain ⟨hrest, hlines⟩ := Scanner.atRest_of_finish ⟨rfl, rfl, rfl⟩ h
  rw [hstart, Scanner.foldl_step_below] at hrest hlines
  refine ⟨_, ⟨⟨hrest.mode, hrest.brackets, ?_⟩, rfl⟩, ?_⟩
  · simpa [Scanner.below] using hrest.tokens
  · rw [← hlines]
    simp [Scanner.below]

theorem scanLines_of_wholeLines {cs : List Char} {plain : List Line}
    (h : WholeLines (closeLastLine (plainLineEnds cs)) plain) :
    scanLines cs = (plain.map (·.lowered 1), false) := by
  have hstart : ({} : Scanner) = ({ row := 0 } : Scanner).below [] 1 := rfl
  have hrest := h.atRest.below [] 1
  rw [scanLines, hstart, Scanner.foldl_step_below, Scanner.finish, hrest.mode]
  simp only [hrest.brackets, hrest.tokens]
  simp [Scanner.below, ← h.lines]

end BlockWorkbench.Script
