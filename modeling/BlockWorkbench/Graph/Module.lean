import BlockWorkbench.Json.Convert
import BlockWorkbench.Text.Blank

/-!
Processing modules. A map transforms each record on its own; a store accumulates values under an
update policy. The inputs are names, in the order in which they are bound to the handler; the
name `BLOCK` stands for the raw block.
-/

namespace BlockWorkbench

/-- The input name of the raw streamed block. -/
def blockName : String := "BLOCK"

inductive UpdatePolicy where
  | set
  | setOnce
  deriving DecidableEq, Repr

namespace UpdatePolicy

def text : UpdatePolicy → String
  | set => "set"
  | setOnce => "setOnce"

def parse (v : Json) : Except Fault UpdatePolicy :=
  match v with
  | .str "set" => .ok set
  | .str "setOnce" => .ok setOnce
  | v => .error (.badPolicy v)

end UpdatePolicy

inductive ModuleKind where
  | map
  | store (policy : UpdatePolicy)
  deriving DecidableEq, Repr

namespace ModuleKind

def text : ModuleKind → String
  | map => "map"
  | store _ => "store"

/-- The statement that registers a module of the kind. -/
def registerFunction : ModuleKind → String
  | map => "add_mfn"
  | store _ => "add_sfn"

/-- The name of the class of modules of the kind. -/
def className : ModuleKind → String
  | map => "MapModule"
  | store _ => "StoreModule"

end ModuleKind

/-- A module of a graph. Code and inputs come from clients and may be any JSON value; only text
is of use. -/
structure Module where
  kind : ModuleKind
  name : String
  code : Json := .str ""
  inputs : List Json := []
  editing : Json := .bool true
  deriving Repr

namespace Module

/-- A name is text that is neither blank nor that of the block. -/
def checkName : Json → Except Fault String
  | .str s =>
    if Text.isAllBlank s then .error .blankName
    else if s = blockName then .error .reservedName
    else .ok s
  | _ => .error .blankName

/-- The fields of a module, in the order in which they are written. -/
def definitionFields (m : Module) : List (String × Json) :=
  [("kind", .str m.kind.text), ("name", .str m.name), ("code", m.code),
    ("inputs", .list m.inputs), ("editing", m.editing)]
    ++ match m.kind with
      | .map => []
      | .store policy => [("update_policy", .str policy.text)]

def definition (m : Module) : Json := .object m.definitionFields

/-- Modules are equal if they are of one kind and their fields are equal. -/
def same (a b : Module) : Bool := a.definition.same b.definition

def literal (m : Module) : String :=
  m.kind.className ++ "(name=" ++ Text.quoted m.name ++ ", inputs=" ++ (Json.list m.inputs).literal
    ++ ")"

/-- The first argument that the constructor does not know. -/
def checkArguments (callee : String) (known : List String) :
    List (String × Json) → Except Fault Unit
  | [] => .ok ()
  | (n, _) :: rest =>
    if n = "self" then .error (.repeatedArgument callee n)
    else if known.contains n then checkArguments callee known rest
    else .error (.unexpectedArgument callee n)

/-- Inputs given as any sequence; none if nothing is given. -/
def inputList : Option Json → Except Fault (List Json)
  | none | some .null => .ok []
  | some v => v.elements

def buildMap (args : List (String × Json)) : Except Fault Module := do
  checkArguments "Module.__init__" ["name", "code", "inputs", "editing"] args
  match Json.field? args "name" with
  | none => .error (.missingArguments "Module.__init__" ["name"])
  | some name =>
    let name ← checkName name
    let inputs ← inputList (Json.field? args "inputs")
    return {
      kind := .map, name, inputs
      code := (Json.field? args "code").getD (.str "")
      editing := (Json.field? args "editing").getD (.bool true) }

def buildStore (args : List (String × Json)) : Except Fault Module := do
  checkArguments "StoreModule.__init__" ["name", "code", "inputs", "update_policy", "editing"] args
  match Json.field? args "name" with
  | none => .error (.missingArguments "StoreModule.__init__" ["name"])
  | some name =>
    let name ← checkName name
    let inputs ← inputList (Json.field? args "inputs")
    let policy ← UpdatePolicy.parse ((Json.field? args "update_policy").getD (.str "set"))
    return {
      kind := .store policy, name, inputs
      code := (Json.field? args "code").getD (.str "")
      editing := (Json.field? args "editing").getD (.bool true) }

/-- The module that entries describe. -/
def ofEntries (entries : List (Scalar × Json)) : Except Fault Module :=
  match Json.popEntry entries "kind" with
  | (none, _) => .error (.missingKey (.str "kind"))
  | (some kind, rest) =>
    match kind with
    | .str "map" => do buildMap (← Json.asKeywords rest)
    | .str "store" => do buildStore (← Json.asKeywords rest)
    | kind => .error (.unknownKind kind)

def ofDefinition (v : Json) : Except Fault Module := do ofEntries (← v.asEntries)

/-- The text of a map that passes on the block number. -/
def mapTemplate (name : String) : String :=
  "def " ++ name ++ "(" ++ blockName ++ "):\n    return " ++ blockName ++ "[\"number\"]\n"

/-- The text of a store that sets the value of one input. -/
def storeTemplate (name source : String) : String :=
  "def " ++ name ++ "(" ++ source ++ ", s):\n    s.set(" ++ source ++ ")\n"

/-- A map over the raw block. -/
def newMap (name : Json) : Except Fault Module := do
  let name ← checkName name
  return { kind := .map, name, code := .str (mapTemplate name), inputs := [.str blockName] }

/-- A store fed by one input. -/
def newStore (name : Json) (source : Json := .str "foo") : Except Fault Module := do
  let name ← checkName name
  return {
    kind := .store .set, name
    code := .str (storeTemplate name source.plain)
    inputs := [source] }

end Module

end BlockWorkbench
