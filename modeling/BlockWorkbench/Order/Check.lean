import BlockWorkbench.Order

/-!
A check of orders against what they must meet, and a run of it over chains and small cases.
-/

namespace BlockWorkbench.Order

/-- Whether `order` holds the items and nothing else, each as often as they do. -/
def covers (order items : List String) : Bool :=
  order.length == items.length && order.all items.contains && items.all order.contains

/-- Whether every link's first name stands before its second. -/
def respects (order : List String) (links : List (Link String)) : Bool :=
  links.all fun l => decide (order.idxOf l.before < order.idxOf l.after)

/-- The order of names as texts. -/
def nameAtMost (a b : String) : Bool := decide (a ≤ b)

/-- The order found for the items is one of them and respects the links. -/
def checks (links : List (Link String)) (items : List String) : Bool :=
  match processingOrder nameAtMost links (some items) with
  | .ok order => covers order items && respects order links
  | .error _ => false

/-- Whether no order is found. -/
def refuses (links : List (Link String)) (items : List String) : Bool :=
  match processingOrder nameAtMost links (some items) with
  | .ok _ => false
  | .error _ => true

/-- Links between neighbours of a list. -/
def chain : List String → List (Link String)
  | a :: b :: rest => ⟨a, b⟩ :: chain (b :: rest)
  | _ => []

def numbered (n : Nat) : List String := (List.range n).map fun i => toString i

/-- The cases that a working order must pass, by name. -/
def trials : List (String × Bool) :=
  let items := numbered 9
  let long := numbered 201
  [("test empty", checks [] items),
    ("test2", checks [⟨"4", "1"⟩, ⟨"3", "2"⟩, ⟨"7", "6"⟩] items),
    ("test1", checks [⟨"4", "0"⟩, ⟨"0", "1"⟩, ⟨"1", "2"⟩, ⟨"7", "0"⟩, ⟨"3", "5"⟩] items),
    ("test3", refuses [⟨"1", "4"⟩, ⟨"4", "3"⟩, ⟨"4", "5"⟩, ⟨"5", "1"⟩] items),
    ("depth-1", checks (chain long) long),
    ("depth-2", checks ((chain long).map fun l => ⟨l.after, l.before⟩) long)]

/-- The first case that fails, if any. -/
def failedTrial? : Option String := (trials.find? fun t => !t.2).map (·.1)

end BlockWorkbench.Order
