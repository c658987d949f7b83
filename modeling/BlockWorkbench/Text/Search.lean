/-!
Where one text occurs in another.
-/

namespace BlockWorkbench.Text

/-- Whether `part` stands somewhere in a text. -/
def occursIn {α : Type} [BEq α] (part : List α) : List α → Bool
  | [] => part.isEmpty
  | c :: rest => part.isPrefixOf (c :: rest) || occursIn part rest

theorem occursIn_iff {α : Type} [BEq α] [LawfulBEq α] {part cs : List α} :
    occursIn part cs = true ↔ part <:+: cs := by
  induction cs with
  | nil => simp [occursIn]
  | cons c rest ih => simp [occursIn, ih, List.infix_cons_iff]

end BlockWorkbench.Text
