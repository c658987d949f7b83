import BlockWorkbench.Graph.Definition
import BlockWorkbench.Graph.Script

/-!
What can be done with a graph, as one type of operations, each with its answer. An operation
that fails leaves a fault as its answer; the graph goes on from wherever the operation left it.
-/

namespace BlockWorkbench.Graph

inductive Operation where
  | insert (definition : Json)
  | newMap (name : Json)
  | newStore (name source : Json)
  | load (definition : Json)
  | reload
  | all
  | size
  | contains (id : Json)
  | dumps (settings : List (String × Json))
  | equal (a b : Json)
  | inspect (id : Json)
  | generate
  | validate
  | register (id : Json)
  | resolveInput (input : Json)
  | remove (id : Json)
  | get (id : Json)
  | rename (id newName : Json)
  | find (name : Json)
  | names
  | setInputs (id inputs : Json)
  | setCode (id code : Json)
  | setUpdatePolicy (id policy : Json)
  | dependents (id : Json)
  | definition
  deriving Repr

inductive Answer where
  | value (v : Json)
  /-- A module, with its id if the graph goes on holding it. -/
  | module (held : Option Scalar) (m : Module)
  /-- A module found by name. -/
  | entry (id : Scalar) (m : Module)
  | entries (all : List (Scalar × Module))
  deriving Repr

namespace Answer

def nothing : Answer := value .null

def toJson : Answer → Json
  | value v => v
  | module _ m => m.definition
  | entry id m => .list [id.toJson, m.definition]
  | entries all => .list (all.map fun (id, m) => .list [id.toJson, m.definition])

/-- The answer with another view of each module that the graph goes on holding. -/
def withModules (see : Scalar → Module → Module) : Answer → Answer
  | module (some id) m => module (some id) (see id m)
  | entry id m => entry id (see id m)
  | entries all => entries (all.map fun (id, m) => (id, see id m))
  | a => a

end Answer

/-- The module of an id, if the id can be a key. -/
def fetch (g : Graph) (id : Json) : Except Fault (Option Module) := do
  return g.get? (← id.asKey)

/-- The answer of an operation that changes nothing. -/
def look (g : Graph) : Operation → Except Fault Answer
  | .all => .ok (.entries g.entries)
  | .size => .ok (.value (.int g.size))
  | .contains id => do return .value (.bool (← g.fetch id).isSome)
  | .dumps settings => do return .value (.str (← g.dumps settings))
  | .equal a b => do
    match ← g.fetch a, ← g.fetch b with
    | some m, some n => return .value (.bool (m.same n))
    | none, none => return .value (.bool true)
    | _, _ => return .value (.bool false)
  | .inspect id => do
    match ← g.fetch id with
    | some m => return .value (.str m.literal)
    | none => return .value (.str (Json.null : Json).literal)
  | .generate => do return .value (.str (← g.script))
  | .validate => .ok (.value (.list (g.unresolved.map .str)))
  | .register id => do
    match ← g.fetch id with
    | some m => return .value (.str (← g.registration m))
    | none => throw (.noAttribute (Json.null : Json).typeName "inputs")
  | .resolveInput input => do return .value (← g.resolveInput input).toJson
  | .get id => do
    let key ← id.asKey
    match g.get? key with
    | some m => return .module (some key) m
    | none => return .nothing
  | .find name =>
    match g.find? name with
    | some (id, m) => .ok (.entry id m)
    | none => .ok .nothing
  | .names => .ok (.value (.list (g.names.map .str)))
  | .dependents id => do return .value (.list ((← g.dependents id).map Scalar.toJson))
  | .definition => .ok (.value g.definition)
  | _ => .ok .nothing

/-- A change that took place, or the graph as it was with the reason why not. -/
def changed (g : Graph) : Except Fault (Answer × Graph) → Except Fault Answer × Graph
  | .ok (a, g') => (.ok a, g')
  | .error f => (.error f, g)

/-- Carries out an operation. -/
def perform (g : Graph) (op : Operation) : Except Fault Answer × Graph :=
  match op with
  | .insert definition => g.changed do
    let (id, g) ← g.insert (← Module.ofDefinition definition)
    return (.value id.toJson, g)
  | .newMap name => g.changed do
    let (id, g) ← g.insert (← Module.newMap name)
    return (.value id.toJson, g)
  | .newStore name source => g.changed do
    let (id, g) ← g.insert (← Module.newStore name source)
    return (.value id.toJson, g)
  | .load definition => g.changed do return (.nothing, ← ofDefinition definition)
  | .reload => g.changed do return (.nothing, ← ofDefinition g.definition)
  | .remove id => g.changed do
    let (m, g) ← g.remove id
    return (.module none m, g)
  | .setInputs id inputs => g.changed do return (.nothing, ← g.setInputs id inputs)
  | .setCode id code => g.changed do return (.nothing, ← g.setCode id code)
  | .setUpdatePolicy id policy => g.changed do return (.nothing, ← g.setUpdatePolicy id policy)
  | .rename id newName =>
    match g.rename id newName with
    | (.ok _, g) => (.ok .nothing, g)
    | (.error f, g) => (.error f, g)
  | op => (g.look op, g)

end BlockWorkbench.Graph
