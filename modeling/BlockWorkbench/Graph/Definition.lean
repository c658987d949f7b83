import BlockWorkbench.Graph.Basic
import BlockWorkbench.Json.Writer

/-!
Graphs as JSON: what is written, and what is read back. An entry without id takes the next
generated one; after loading, new ids continue above the largest.
-/

namespace BlockWorkbench.Graph

/-- The version of the form in which graphs are written. -/
def version : String := "1.0"

def definition (g : Graph) : Json :=
  .object [("version", .str version),
    ("modules", .list (g.entries.map fun (id, m) =>
      .object (("id", id.toJson) :: m.definitionFields)))]

/-- Whether one id is above another; ids of different types have no order. -/
def above (later former : Scalar) : Except Fault Bool :=
  match later.number?, former.number? with
  | some a, some b => .ok (b.less a)
  | _, _ =>
    match later, former with
    | .str a, .str b => .ok (decide (b < a))
    | _, _ => .error (.unorderedIds later.typeName former.typeName)

/-- The largest of `best` and the ids that follow it. -/
def largest (best : Scalar) : List Scalar → Except Fault Scalar
  | [] => .ok best
  | id :: rest => do if ← above id best then largest id rest else largest best rest

/-- The number that follows the largest id. -/
def numberAfter : List Scalar → Except Fault Number
  | [] => .ok (.int 1)
  | id :: rest => do
    match (← largest id rest).number? with
    | some n => return succ n
    | none => throw .textId

/-- Adds one entry of a definition to the modules loaded so far. -/
def load (g : Graph) (state : Json) : Except Fault Graph := do
  let (id, entries) := Json.popEntry (← state.asEntries) "id"
  let m ← Module.ofEntries entries
  match id with
  | none | some .null => return (← g.insert m).2
  | some id =>
    if (g.find? (.str m.name)).isSome then throw (.duplicateName m.name)
    else return g.put (← id.asKey) m

def ofDefinition (v : Json) : Except Fault Graph :=
  match v with
  | .object fields => do
    if !((Json.field? fields "version").getD (.str version)).same (.str version) then
      throw .versionMismatch
    match Json.field? fields "modules" with
    | none => throw (.missingKey (.str "modules"))
    | some modules =>
      let g ← (← modules.elements).foldlM load {}
      return { g with next := ← numberAfter g.ids }
  | v => .error (.noAttribute v.typeName "get")

/-- The settings that a writer is asked for. -/
def styleOf : List (String × Json) → Except Fault Json.Style
  | [] => .ok {}
  | (name, v) :: rest => do
    let style ← styleOf rest
    match name with
    | "sort_keys" => return { style with sortKeys := v.isTruthy }
    | "ensure_ascii" => return { style with ascii := v.isTruthy }
    | "indent" =>
      match v with
      | .null => return style
      | .int n => return { style with indent := some (List.replicate n.toNat ' ') }
      | .bool b => return { style with indent := some (if b then [' '] else []) }
      | .str s => return { style with indent := some s.toList }
      | v => throw (.notRepeatable v.typeName)
    | name => throw (.unexpectedArgument "JSONEncoder.__init__" name)

/-- The graph as JSON text. -/
def dumps (g : Graph) (settings : List (String × Json)) : Except Fault String := do
  return g.definition.render (← styleOf settings)

/-- A map over the block, and a store that it feeds. -/
def starter : Graph where
  entries := [
    (.int 1, {
      kind := .map, name := "foo", code := .str (Module.mapTemplate "foo")
      inputs := [.str blockName] }),
    (.int 2, {
      kind := .store .set, name := "test_store"
      code := .str (Module.storeTemplate "test_store" "foo"), inputs := [.str "foo"] })]
  next := .int 3

end BlockWorkbench.Graph
