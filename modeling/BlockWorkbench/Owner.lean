import BlockWorkbench.Graph.Operation

/-!
The owner of a graph. Clients queue operations with it instead of sharing the graph; it carries
them out one at a time in the order in which they were queued, until it is told to stop.
-/

namespace BlockWorkbench.Owner

inductive Item where
  /-- An operation, and whether its client cancelled it before it started. -/
  | operation (op : Graph.Operation) (cancelled : Bool)
  | stop
  deriving Repr

inductive Outcome where
  | answered (result : Except Fault Graph.Answer)
  | cancelled
  /-- Queued behind the stop. -/
  | pending

/-- The outcome of an operation that is not reached. -/
def unserved : Item → Option Outcome
  | .operation _ true => some .cancelled
  | .operation _ false => some .pending
  | .stop => none

/-- Works through a queue: the outcomes of its operations in order, and the graph in the end. -/
def run (g : Graph) : List Item → List Outcome × Graph
  | [] => ([], g)
  | .operation _ true :: rest =>
    let (outcomes, final) := run g rest
    (.cancelled :: outcomes, final)
  | .operation op false :: rest =>
    let (result, g') := g.perform op
    let (outcomes, final) := run g' rest
    (.answered result :: outcomes, final)
  | .stop :: rest => (rest.filterMap unserved, g)

/-- Whether an operation put another graph in the place of the present one. -/
def replaced : Graph.Operation → Except Fault Graph.Answer → Bool
  | .load _, .ok _ | .reload, .ok _ => true
  | _, _ => false

/-- The module `id` of an answer, as its client sees it when the rest of the queue is done: with
the edits that it has seen until it left the graph. -/
def settled (g : Graph) (rest : List Item) (id : Scalar) (m : Module) : Module :=
  match rest with
  | [] | .stop :: _ => m
  | .operation _ true :: rest => settled g rest id m
  | .operation op false :: rest =>
    let (result, g') := g.perform op
    if replaced op result then m
    else
      match g'.get? id with
      | some m' => settled g' rest id m'
      | none => m

/-- The outcomes of a queue as the clients see them when it is done. -/
def outcomes (g : Graph) : List Item → List Outcome
  | [] => []
  | .operation _ true :: rest => .cancelled :: outcomes g rest
  | .operation op false :: rest =>
    let (result, g') := g.perform op
    .answered (result.map (·.withModules (settled g' rest))) :: outcomes g' rest
  | .stop :: rest => rest.filterMap unserved

end BlockWorkbench.Owner
