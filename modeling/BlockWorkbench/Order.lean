import Std.Data.HashSet

/-!
The order in which linked items are worked through. A pair `(a, b)` asks for `a` before `b`. The
order is found from its end: in each round the items that nothing further depends on are taken
off, and within a round names are sorted, so the order depends on the set of pairs alone.
-/

namespace BlockWorkbench.Order

/-- The name `before` is needed before the name `after`. -/
structure Link (α : Type) where
  before : α
  after : α
  deriving DecidableEq, Repr

inductive Fault (α : Type) where
  /-- The names left when no further item could be taken off. -/
  | cyclic (names : List α)
  /-- The linked names that are not among the items. -/
  | outside (names : List α)
  deriving DecidableEq, Repr

/-- What is said of the names in a fault. -/
def Fault.lead {α : Type} : Fault α → String
  | .cyclic _ => "Cyclic dependencies amongst "
  | .outside _ => "Not all dependencies are in the set: "

def Fault.names {α : Type} : Fault α → List α
  | .cyclic names | .outside names => names

def Fault.message (f : Fault String) : String := f.lead ++ ", ".intercalate f.names

variable {α : Type} [BEq α] [Hashable α]

/-- The distinct names of a list in ascending order. -/
def ascending (atMost : α → α → Bool) (names : List α) : List α :=
  names.eraseDups.mergeSort atMost

/-- Names that stand behind others only. -/
def ends (links : List (Link α)) : List α :=
  let befores := Std.HashSet.ofList (links.map (·.before))
  (links.map (·.after)).filter fun b => !befores.contains b

/-- The links left when those that lead to an end are done with. -/
def inner (links : List (Link α)) : List (Link α) :=
  let last := Std.HashSet.ofList (ends links)
  links.filter fun l => !last.contains l.after

theorem length_inner_lt [LawfulBEq α] [LawfulHashable α] {links : List (Link α)}
    (h : ends links ≠ []) :
    (inner links).length < links.length := by
  obtain ⟨b, hb⟩ := List.exists_mem_of_ne_nil _ h
  have hmap := (List.mem_filter.mp hb).1
  obtain ⟨l, hl, rfl⟩ := List.mem_map.mp hmap
  exact List.length_filter_lt_length_iff_exists.mpr ⟨l, hl, by simpa using hb⟩

/-- The names whose last need is met in this round. -/
def released (links : List (Link α)) : List α :=
  let last := Std.HashSet.ofList (ends links)
  let waiting := Std.HashSet.ofList ((inner links).map (·.before))
  ((links.filter fun l => last.contains l.after).map (·.before)).filter
    fun a => !waiting.contains a

/-- The names that others wait for, the last needed first; within a round in descending
order. -/
def fromEnd [LawfulBEq α] [LawfulHashable α] (atMost : α → α → Bool) (links : List (Link α)) :
    Except (Fault α) (List α) :=
  if links.isEmpty then .ok []
  else if _h : ends links = [] then .error (.cyclic (ascending atMost (links.map (·.before))))
  else
    (fromEnd atMost (inner links)).map fun later =>
      (ascending atMost (released links)).reverse ++ later
termination_by links.length
decreasing_by exact length_inner_lt ‹_›

/-- The names mentioned in links, in the order of first mention. -/
def mentioned (links : List (Link α)) : List α :=
  (links.flatMap fun l => [l.before, l.after]).eraseDups

/-- The items in an order that meets every link. Items that nothing waits for come last, in the
order given. Without items, the names in the links are ordered. -/
def processingOrder [LawfulBEq α] [LawfulHashable α] (atMost : α → α → Bool)
    (links : List (Link α)) (items : Option (List α)) : Except (Fault α) (List α) := do
  let order := (← fromEnd atMost links).reverse
  match items with
  | none => .ok (order ++ (mentioned links).filter (!order.contains ·))
  | some items =>
    let unknown := (mentioned links).filter (!items.contains ·)
    if unknown.isEmpty then .ok (order ++ items.filter (!order.contains ·))
    else .error (.outside (ascending atMost unknown))

end BlockWorkbench.Order
