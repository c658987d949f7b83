import BlockWorkbench.Proofs.Script.Scanning

/-!
The tokens of a script made of lines that are put together. A line at the left edge closes every
block that the lines before it have opened, so lines from different texts are laid out one text
after the other.
-/

namespace BlockWorkbench.Script

/-- The tokens of whole lines behind open blocks, without their rows. -/
def layout (blocks : List Depth) (lines : List Line) : List Token :=
  (arrange false blocks 0 lines).map (·.token)

/-- Rows do not matter for the layout. -/
theorem map_token_arrange (blocks : List Depth) (row d : Nat) (lines : List Line) :
    (arrange false blocks row (lines.map (·.lowered d))).map (·.token) = layout blocks lines := by
  unfold layout
  generalize 0 = row'
  induction lines generalizing blocks row row' with
  | nil => simp [arrange]
  | cons line rest ih =>
      have hindent : indentation (line.lowered d) blocks = indentation line blocks := rfl
      have htokens : (line.lowered d).tokens.map (·.token) = line.tokens.map (·.token) := by
        simp [Line.lowered, Placed.lowered, Function.comp_def]
      simp only [List.map_cons, arrange, hindent]
      split
      · simp [Function.comp_def]
      · rename_i ts blocks' _
        simp [htokens, ih blocks' _ line.lastRow, Function.comp_def]

theorem layout_nil (blocks : List Depth) :
    layout blocks [] = List.replicate (blocks.length - 1) .dedent := by
  simp [layout, arrange]

theorem layout_cons {line : Line} {blocks blocks' : List Depth} {ts : List Token}
    (h : indentation line blocks = (ts, .ok blocks')) (rest : List Line) :
    layout blocks (line :: rest) =
      ts ++ line.tokens.map (·.token) ++ .newline :: layout blocks' rest := by
  have hrest := map_token_arrange blocks' line.lastRow 0 rest
  have hsame : rest.map (·.lowered 0) = rest := by
    rw [List.map_congr_left fun l _ => ?_, List.map_id]
    simp [Line.lowered, Placed.lowered]
  rw [hsame] at hrest
  rw [← hrest]
  simp [layout, arrange, h, Function.comp_def]

theorem layout_cons_error {line : Line} {blocks : List Depth} {ts : List Token} {f : SyntaxFault}
    (h : indentation line blocks = (ts, .error f)) (rest : List Line) :
    layout blocks (line :: rest) = ts ++ [.fault f] := by
  simp [layout, arrange, h, Function.comp_def]

/-- Open blocks, all of which but the outermost are indented. -/
inductive Rooted : List Depth → Prop
  | root : Rooted [(0, 0)]
  | block {c b : Nat} {blocks : List Depth} : 0 < c → Rooted blocks → Rooted ((c, b) :: blocks)

theorem Rooted.closeBlocks {blocks : List Depth} (h : Rooted blocks) :
    closeBlocks 0 blocks = (List.replicate (blocks.length - 1) .dedent, [(0, 0)]) := by
  induction h with
  | root => rfl
  | @block c b blocks hc h ih =>
      have hlength : blocks.length = blocks.length - 1 + 1 := by
        cases h <;> rfl
      simp only [Script.closeBlocks, if_pos hc, ih, List.length_cons, Nat.add_sub_cancel]
      conv_rhs => rw [hlength, List.replicate_succ]

/-- A line at the left edge closes all blocks. -/
theorem Rooted.indentation {blocks : List Depth} (h : Rooted blocks) {line : Line}
    (hcolumn : line.column = 0) (hblanks : line.blanks = 0) :
    indentation line blocks = (List.replicate (blocks.length - 1) .dedent, .ok [(0, 0)]) := by
  have hclose := h.closeBlocks
  cases h with
  | root => simp [Script.indentation, hcolumn, hblanks]
  | block hc h =>
      simp [Script.indentation, hcolumn, hblanks, hclose, Nat.ne_of_lt hc]

theorem Rooted.left {blocks : List Depth} (h : Rooted blocks) (column : Nat) :
    Rooted (Script.closeBlocks column blocks).2 := by
  induction h with
  | root => exact .root
  | block hc h ih =>
      simp only [Script.closeBlocks]
      split
      · exact ih
      · exact .block hc h

theorem indentation_rooted {line : Line} {blocks blocks' : List Depth} {ts : List Token}
    (h : Rooted blocks) (hindent : Script.indentation line blocks = (ts, .ok blocks')) :
    Rooted blocks' := by
  cases blocks with
  | nil => cases h
  | cons block rest =>
      obtain ⟨c, b⟩ := block
      simp only [Script.indentation] at hindent
      split_ifs at hindent with hsame _ hdeeper
      · cases hindent
        exact h
      · cases hindent
      · cases hindent
      · cases hindent
      · cases hindent
        exact .block (by omega) h
      · split at hindent
        · rename_i hleft
          split_ifs at hindent
          · cases hindent
          · cases hindent
          · cases hindent
            exact h.left line.column
        · cases hindent

/-- Tokens that do not end with a fault. -/
def Sound (ts : List Token) : Prop := ∀ f, ts.getLast? ≠ some (.fault f)

/-- Lines that are laid out without a fault are laid out so before lines that start at the left
edge, and close what they have opened. -/
theorem layout_append {blocks : List Depth} {lines : List Line} (hblocks : Rooted blocks)
    (hsound : Sound (layout blocks lines)) {more : List Line}
    (hmore : ∀ line ∈ more.head?, line.column = 0 ∧ line.blanks = 0) :
    layout blocks (lines ++ more) = layout blocks lines ++ layout [(0, 0)] more := by
  induction lines generalizing blocks with
  | nil =>
      cases more with
      | nil => simp [layout_nil]
      | cons line rest =>
          obtain ⟨hcolumn, hblanks⟩ := hmore line rfl
          rw [List.nil_append, layout_nil, layout_cons (hblocks.indentation hcolumn hblanks),
            layout_cons (Rooted.root.indentation hcolumn hblanks)]
          simp
  | cons line rest ih =>
      cases hindent : Script.indentation line blocks with | mk ts left =>
      cases left with
      | error f =>
        rw [layout_cons_error hindent] at hsound
        simp [Sound] at hsound
      | ok blocks' =>
        rw [layout_cons hindent] at hsound
        have hrest : Sound (layout blocks' rest) := by
          intro f hf
          refine hsound f ?_
          simp [List.getLast?_append, List.getLast?_cons, hf]
        rw [List.cons_append, layout_cons hindent, layout_cons hindent,
          ih (indentation_rooted hblocks hindent) hrest]
        simp

end BlockWorkbench.Script
