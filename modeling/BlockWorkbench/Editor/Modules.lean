import BlockWorkbench.Editor.Basic

/-!
Editing the modules of a session, and the script of its graph.
-/

namespace BlockWorkbench.Editor

/-- A value, unless it is null. -/
def given? : Json → Option Json
  | .null => none
  | v => some v

def insert (e : Editor) (m : Except Fault Module) : Reply Json :=
  match m with
  | .error f => { result := .error f, editor := e }
  | .ok m => e.ask fun g =>
    match g.insert m with
    | .ok (id, g') => (.ok id.toJson, g')
    | .error f => (.error f, g)

/-- A map with its code and inputs, as far as these are given. -/
def mapModule (name code inputs : Json) : Except Fault Module := do
  let m ← Module.newMap name
  let inputs ← (given? inputs).elim (pure m.inputs) Json.elements
  return { m with code := (given? code).getD m.code, inputs }

/-- A store with its code and inputs, as far as these are given, and an update policy. -/
def storeModule (name code inputs policy : Json) : Except Fault Module := do
  let m ← Module.newStore name
  let inputs ← (given? inputs).elim (pure m.inputs) Json.elements
  let policy ← UpdatePolicy.parse policy
  return { m with code := (given? code).getD m.code, inputs, kind := .store policy }

/-- Adds a map, returning its id. -/
def addMap (e : Editor) (name code inputs : Json) : Reply Json :=
  e.insert (mapModule name code inputs)

/-- Adds a store, returning its id. -/
def addStore (e : Editor) (name code inputs policy : Json) : Reply Json :=
  e.insert (storeModule name code inputs policy)

/-- A change of the graph that may fail. -/
def change (e : Editor) (edit : Graph → Except Fault Graph) : Reply Unit :=
  e.ask fun g =>
    match edit g with
    | .ok g' => (.ok (), g')
    | .error f => (.error f, g)

/-- Takes a module out, returning it. -/
def removeModule (e : Editor) (id : Json) : Reply Module :=
  e.ask fun g =>
    match g.remove id with
    | .ok (m, g') => (.ok m, g')
    | .error f => (.error f, g)

/-- The record of a rename, if its id can be written as a number. -/
def renameRecord (id : Json) : Graph.Renaming → List Record
  | .unchanged => []
  | .renamed old new =>
    match id with
    | .str _ | .null => []
    | id =>
      match id.toInt with
      | .error _ => []
      | .ok n =>
        [⟨.debug, "streamline.dataflow.core", s!"renamed module {n} from " ++ Text.quoted old
          ++ " to " ++ Text.quoted new⟩]

/-- Renames a module and every input that names it. -/
def renameModule (e : Editor) (id newName : Json) : Reply Graph.Renaming :=
  let reply := e.ask fun g => g.rename id newName
  match reply.result with
  | .ok done => { reply with records := renameRecord id done }
  | .error _ => reply

def setInputs (e : Editor) (id inputs : Json) : Reply Unit := e.change (·.setInputs id inputs)

def setCode (e : Editor) (id code : Json) : Reply Unit := e.change (·.setCode id code)

def setUpdatePolicy (e : Editor) (id policy : Json) : Reply Unit :=
  e.change (·.setUpdatePolicy id policy)

/-- The modules of the graph with their ids. -/
def modules (e : Editor) : Except Fault (List (Scalar × Module)) := e.look fun g => .ok g.entries

/-- The script of the graph. -/
def script (e : Editor) : Except Fault String := e.look Graph.script

/-- The inputs that do not resolve, in words. -/
def complaints (e : Editor) : Except Fault (List String) := e.look fun g => .ok g.unresolved

/-- The place that scripts are written to: the one given, or that of the settings. -/
def scriptPath (e : Editor) (path : Json) : Json := (given? path).getD e.settings.sourcePath

/-- Writes the script of the graph, returning the path. -/
def writeScript (e : Editor) (path : Json) : Reply Json :=
  let path := e.scriptPath path
  let written : Except Fault Files := do
    let text ← e.script
    match path with
    | .str p => e.files.write p text
    | v => throw (.notAPath v.typeName)
  match written with
  | .error f => { result := .error f, editor := e }
  | .ok files => {
      result := .ok path, editor := { e with files }
      records := [⟨.info, source, "wrote generated source to " ++ path.plain⟩] }

end BlockWorkbench.Editor
