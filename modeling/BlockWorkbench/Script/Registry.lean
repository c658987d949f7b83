import BlockWorkbench.Json.Writer
import BlockWorkbench.Script.Sequence

/-!
The modules that scripts register, in the order in which their names were first registered, and
the manifest made of them. A registration either is complete and well formed or changes nothing.
-/

namespace BlockWorkbench.Script

inductive RegisteredKind where
  | map
  | store
  deriving DecidableEq, Repr

def RegisteredKind.text : RegisteredKind → String
  | map => "map"
  | store => "store"

/-- What an input reads: the raw block, or a module of some kind. -/
inductive InputKind where
  | source
  | module (kind : RegisteredKind)
  deriving DecidableEq, Repr

def InputKind.parse? : Value → Option InputKind
  | .str t =>
    if t = .ofString "source" then some source
    else if t = .ofString "map" then some (module .map)
    else if t = .ofString "store" then some (module .store)
    else none
  | _ => none

/-- An input as it was registered. -/
structure RegisteredInput where
  kind : InputKind
  name : Value
  entries : List (Value × Value)

structure Registration where
  kind : RegisteredKind
  name : Points
  handler : Points
  inputs : List RegisteredInput

/-- The registrations, one for each name. -/
abbrev Registry := List Registration

/-- The entry called `name`, or none. -/
def namedEntry (entries : List (Value × Value)) (name : String) : Value :=
  (valueAt? entries (.str (.ofString name))).getD .none

/-- An input in a registration of `module`: a dictionary with a known kind and, unless it is the
block, a name. -/
def readInput (s : Store) (module : Points) (input : Value) :
    Except RuntimeFault RegisteredInput := do
  let refused : Except RuntimeFault RegisteredInput := do
    throw (.invalidInput module (← s.literal input))
  match input with
  | .dict a =>
    let entries := s.entries a
    let name := namedEntry entries "name"
    match InputKind.parse? (namedEntry entries "kind") with
    | none => refused
    | some .source => return ⟨.source, name, entries⟩
    | some (.module kind) =>
      if s.isTruthy name then return ⟨.module kind, name, entries⟩
      else throw (.unnamedInput module)
  | _ => refused

def readInputs (s : Store) (module : Points) :
    List Value → Except RuntimeFault (List RegisteredInput)
  | [] => .ok []
  | v :: rest => do return (← readInput s module v) :: (← readInputs s module rest)

/-- A registration as it stands in the dictionary `spec`. -/
def readRegistration (s : Store) (kind : RegisteredKind) (spec : Value) :
    Except RuntimeFault Registration :=
  match spec with
  | .dict a => do
    let entries := s.entries a
    let name ← match namedEntry entries "name" with
      | .str name => if name = [] then throw .unnamedRegistration else pure name
      | _ => throw .unnamedRegistration
    let handler ← match namedEntry entries "handler" with
      | .str handler => if handler = [] then throw (.noHandler name) else pure handler
      | _ => throw (.noHandler name)
    let inputs ← match valueAt? entries (.str (.ofString "inputs")) with
      | some v => s.elements v
      | none => pure []
    return ⟨kind, name, handler, ← readInputs s name inputs⟩
  | _ => .error .notARegistration

namespace Registry

def find? (r : Registry) (name : Points) : Option Registration := List.find? (·.name == name) r

/-- Puts a registration in the place of the one of the same name, or at the end. -/
def put : Registry → Registration → Registry
  | [], m => [m]
  | n :: rest, m => if n.name = m.name then m :: rest else n :: put rest m

def register (r : Registry) (s : Store) (kind : RegisteredKind) (spec : Value) :
    Except RuntimeFault Registry := do
  return r.put (← readRegistration s kind spec)

/-- The link from the module that an input of `m` reads to `m`; none for the block. -/
def link? (r : Registry) (s : Store) (m : Registration) (input : RegisteredInput) :
    Except RuntimeFault (Option (Order.Link Points)) :=
  match input.kind with
  | .source => .ok none
  | .module kind => do
    let name ← input.name.asKey
    let text ← s.literal name
    match name with
    | .str n =>
      match r.find? n with
      | some source =>
        if source.kind = kind then return some ⟨n, m.name⟩
        else throw (.inputKind m.name text kind.text source.kind.text)
      | none => throw (.unregisteredInput m.name text)
    | _ => throw (.unregisteredInput m.name text)

def linksOf (r : Registry) (s : Store) (m : Registration) :
    List RegisteredInput → Except RuntimeFault (List (Order.Link Points))
  | [] => .ok []
  | input :: rest => do
    return (← r.link? s m input).toList ++ (← linksOf r s m rest)

/-- Who reads whom, over some of the modules. -/
def links (r : Registry) (s : Store) :
    List Registration → Except RuntimeFault (List (Order.Link Points))
  | [] => .ok []
  | m :: rest => do return (← r.linksOf s m m.inputs) ++ (← links r s rest)

/-- The names of the modules, each after those that it reads. -/
def order (r : Registry) (s : Store) : Except RuntimeFault (List Points) := do
  match Order.processingOrder Points.atMost (← r.links s r) (some (r.map (·.name))) with
  | .ok names => return names
  | .error cause => throw (.order cause)

end Registry

/-- The type of the raw block. -/
def blockType : String := "sf.ethereum.type.v2.Block"

def RegisteredInput.manifest (input : RegisteredInput) : Json Points :=
  match input.kind, input.name with
  | .module kind, .str name => .object [(kind.text, .str name)]
  | _, _ => .object [("source", .str blockType)]

def Registration.manifest (m : Registration) : Json Points :=
  .object [("name", .str m.name), ("kind", .str m.kind.text),
    ("inputs", .list (m.inputs.map RegisteredInput.manifest)), ("handler", .str m.handler)]

/-- How the manifest is laid out. -/
def manifestStyle : Json.Style := { indent := some [' ', ' '] }

namespace Registry

/-- The modules in an order in which each comes after those that it reads. -/
def manifest (r : Registry) (s : Store) : Except RuntimeFault (Json Points) := do
  let names ← r.order s
  return .object [("modules", .list ((names.filterMap r.find?).map Registration.manifest))]

/-- The manifest as text. -/
def manifestText (r : Registry) (s : Store) : Except RuntimeFault String := do
  return (← r.manifest s).render manifestStyle

end Registry

end BlockWorkbench.Script
