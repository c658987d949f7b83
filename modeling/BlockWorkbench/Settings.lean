import BlockWorkbench.Json.Convert
import BlockWorkbench.Journal

/-!
The settings of a session. They are given as named values laid over the default ones; the token
for the streaming service is not among them but in an environment variable that they name.
-/

namespace BlockWorkbench

structure Settings where
  endpoint : Json
  package : Json
  moduleName : Json
  startBlock : Int
  stopBlock : Int
  token : Option String
  streamTimeout : Json
  sourcePath : Json
  showExceptions : Bool
  deriving Repr

namespace Settings

abbrev Environment := List (String × String)

/-- The values that hold where nothing else is set. -/
def defaults : List (String × Json) := [
  ("endpoint", .str "https://mainnet.eth.streamingfast.io"),
  ("token_env", .str "SUBSTREAMS_API_TOKEN"),
  ("package", .str "https://spkg.io/streamingfast/ethereum-explorer-v0.1.2.spkg"),
  ("module_name", .str "map_block_meta"),
  ("start_block", .int 12292922),
  ("stop_block", .int 12292925),
  ("stream_timeout", .null),
  ("source_path", .str "/tmp/streamline_ide_output.py"),
  ("log_level", .str "WARNING"),
  ("show_exceptions", .bool false)]

/-- The folder in which configurations are looked up. -/
def folder : String := "streamline.configurations"

/-- Checks that the configuration `name` exists. There is one, called `default`; it holds no
others. -/
def checkConfiguration (name : String) : Except Fault Unit :=
  match name.splitOn "." with
  | ["default"] => .ok ()
  | "default" :: next :: _ =>
    let parent := folder ++ ".default"
    .error (.notAPackage (parent ++ "." ++ next) parent)
  | first :: _ => .error (.missingPackage (folder ++ "." ++ first))
  | [] => .error (.missingPackage (folder ++ "."))

/-- A named configuration; the default one if it does not exist and `fallback` allows it. -/
def loadConfiguration (name : Json) (fallback : Bool) : Except Fault (List (String × Json)) :=
  match checkConfiguration name.plain with
  | .ok () => .ok defaults
  | .error f => if fallback then .ok defaults else .error f

/-- A named configuration laid over the default one. -/
def loadUpdate (name : Json) : Except Fault (List (String × Json)) := do
  checkConfiguration name.plain
  return Json.mergeFields defaults defaults

/-- The levels with a name. -/
def levelNames : List (String × Int) := [
  ("CRITICAL", 50), ("FATAL", 50), ("ERROR", 40), ("WARN", 30), ("WARNING", 30), ("INFO", 20),
  ("DEBUG", 10), ("NOTSET", 0)]

/-- A level given by number or by name. -/
def parseLevel : Json → Except Fault Level
  | .int n => .ok (.ofInt n)
  | .bool b => .ok ⟨if b then 1 else 0, .bool b⟩
  | .str s =>
    match levelNames.find? (·.1 == s) with
    | some (_, n) => .ok (.ofInt n)
    | none => .error (.unknownLevel s)
  | v => .error (.badLevel v)

/-- Named values laid over others; values under keys that are not text are never asked for. -/
def overlay (base : List (String × Json)) (v : Json) : Except Fault (List (String × Json)) := do
  let entries ← v.asEntries
  return entries.foldl (fun acc e =>
    match e.1 with
    | .str name => Json.setField acc name e.2
    | _ => acc) base

/-- The values of a configuration, if given, and of overrides, if given, over the defaults. -/
def combine (configuration overrides : Option Json) : Except Fault (List (String × Json)) := do
  let fields ← configuration.elim (pure defaults) (overlay defaults)
  overrides.elim (pure fields) (overlay fields)

def valueOf (fields : List (String × Json)) (name : String) : Json :=
  (Json.field? fields name).getD .null

/-- The level that the values set; a false value leaves it. -/
def levelOf (fields : List (String × Json)) (level : Level) : Except Fault Level :=
  let v := valueOf fields "log_level"
  if v.isTruthy then parseLevel v else .ok level

/-- The token in the variable that the values name. -/
def tokenOf (environment : Environment) (fields : List (String × Json)) :
    Except Fault (Option String) :=
  match valueOf fields "token_env" with
  | .str name =>
    .ok (if name = "" then none else (environment.find? (·.1 == name)).map (·.2))
  | v => if v.isTruthy then .error (.notAString v.typeName) else .ok none

def ofFields (environment : Environment) (fields : List (String × Json)) :
    Except Fault Settings := do
  let token ← tokenOf environment fields
  let startBlock ← (valueOf fields "start_block").toInt
  let stopBlock ← (valueOf fields "stop_block").toInt
  return {
    endpoint := valueOf fields "endpoint"
    package := valueOf fields "package"
    moduleName := valueOf fields "module_name"
    startBlock, stopBlock, token
    streamTimeout := valueOf fields "stream_timeout"
    sourcePath := valueOf fields "source_path"
    showExceptions := (valueOf fields "show_exceptions").isTruthy }

/-- The settings, and the journal at the level that they ask for. The level is set even if a
later value is of no use. -/
def apply (environment : Environment) (configuration overrides : Option Json) (journal : Journal) :
    Except Fault Settings × Journal :=
  match combine configuration overrides with
  | .error f => (.error f, journal)
  | .ok fields =>
    match levelOf fields journal.level with
    | .error f => (.error f, journal)
    | .ok level => (ofFields environment fields, { journal with level })

end Settings

end BlockWorkbench
