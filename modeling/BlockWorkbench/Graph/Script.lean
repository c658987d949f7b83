import BlockWorkbench.Graph.Basic
import BlockWorkbench.Json.Writer

/-!
The script of a graph: for each module, in graph order, a statement that registers it and then
its code. Nothing is written if an input of any module does not resolve.
-/

namespace BlockWorkbench

/-- What an input stands for. -/
inductive InputSource where
  | block
  | module (kind name : String)
  deriving DecidableEq, Repr

namespace InputSource

/-- The source as an object. -/
def toJson : InputSource → Json
  | block => .object [("kind", .str "source")]
  | module kind name => .object [("kind", .str kind), ("name", .str name)]

end InputSource

namespace Graph

/-- A module of that name, or the block. -/
def resolve? (g : Graph) (input : Json) : Option InputSource :=
  match g.find? input with
  | some (_, m) => some (.module m.kind.text m.name)
  | none =>
    match input with
    | .str s => if s = blockName then some .block else none
    | _ => none

def resolveInput (g : Graph) (input : Json) : Except Fault InputSource :=
  match g.resolve? input with
  | some source => .ok source
  | none => .error (.missingKey input)

/-- The sources of the inputs of `m`, up to the first that does not resolve. -/
def resolveAll (g : Graph) (m : Module) : List Json → Except Fault (List InputSource)
  | [] => .ok []
  | input :: rest => do
    match g.resolve? input with
    | some source => return source :: (← resolveAll g m rest)
    | none => throw (.unresolvedInput m.name input)

/-- The statement that registers `m` with the given sources. -/
def registrationText (m : Module) (sources : List InputSource) : String :=
  let name := Json.stringText m.name
  let inputs := ",".intercalate (sources.map fun s => s.toJson.text)
  "\n" ++ m.kind.registerFunction ++ "(\x7b\n    \"name\": " ++ name ++ ",\n    \"inputs\": ["
    ++ inputs ++ "],\n    \"handler\": " ++ name ++ "\n\x7d)\n"

/-- The statement that registers `m`. -/
def registration (g : Graph) (m : Module) : Except Fault String := do
  return registrationText m (← g.resolveAll m m.inputs)

/-- The statements of all modules, each with its module. -/
def registrations (g : Graph) : List Module → Except Fault (List (Module × String))
  | [] => .ok []
  | m :: rest => do
    let text ← g.registration m
    return (m, text) :: (← registrations g rest)

/-- Joins statements, code and line ends, where `index` counts the parts joined so far. -/
def joinParts (index : Nat) : List (Module × String) → Except Fault String
  | [] => .ok ""
  | (m, text) :: rest =>
    match m.code with
    | .str code => do return text ++ code ++ "\n" ++ (← joinParts (index + 3) rest)
    | code => .error (.notJoined (index + 1) code.typeName)

/-- The script of the whole graph. -/
def script (g : Graph) : Except Fault String := do
  joinParts 0 (← g.registrations (g.entries.map (·.2)))

/-- One complaint for each input that does not resolve. -/
def unresolved (g : Graph) : List String :=
  g.entries.flatMap fun (_, m) =>
    (m.inputs.filter fun input => (g.resolve? input).isNone).map fun input =>
      (Fault.unresolvedInput m.name input).message

end Graph

end BlockWorkbench
