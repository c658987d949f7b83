/-!
Tables of code points, written as closed ranges.
-/

namespace BlockWorkbench.Text

/-- Whether `n` lies in one of the closed ranges of `table`. -/
def inRanges (table : Array (Nat × Nat)) (n : Nat) : Bool :=
  table.any fun (first, last) => first ≤ n && n ≤ last

end BlockWorkbench.Text
