import BlockWorkbench.CommandLine
import BlockWorkbench.Server

/-!
Starting the program with the options of its command line: the configuration is read, the level
of all records is set, and the session is started.
-/

namespace BlockWorkbench

/-- What is running once the program has been started. -/
structure Launch where
  options : CommandLine
  /-- The level of records outside the session. -/
  rootLevel : Level
  server : Server

namespace Launch

/-- The address to listen on, if it is not the default one. -/
def host (l : Launch) : Option String := if l.options.external then some "0.0.0.0" else none

/-- The configuration in a file, or else the default one. -/
def configuration (files : Files) (o : CommandLine) : Except Fault Json :=
  match o.configFile with
  | none => (Settings.loadConfiguration (.str "config") true).map .object
  | some path => do
    let text ← files.read path
    (Json.read text).mapError (Fault.badJson text)

/-- Sets a value of a configuration. -/
def override (configuration : Json) (name : String) (v : Json) : Except Fault Json :=
  match configuration with
  | .object fields => .ok (.object (Json.setField fields name v))
  | .list _ => .error .listIndex
  | other => .error (.noItemAssignment other.typeName)

/-- The values that the options set in place of those in the configuration. -/
def overrides (o : CommandLine) : List (String × Json) :=
  (o.endpoint.map fun e => ("endpoint", Json.str e)).toList
    ++ if o.debug then [("log_level", .str "DEBUG")] else []

/-- The level that a configuration asks for outside the session; null leaves it. -/
def rootLevelOf : Json → Except Fault Level
  | .object fields =>
    match (Json.field? fields "log_level").getD (.str "WARNING") with
    | .null => .ok .warning
    | v => Settings.parseLevel v
  | other => .error (.noAttribute other.typeName "get")

/-- Whether a configuration asks for errors to be explained. -/
def showsExceptions : Json → Bool
  | .object fields => ((Json.field? fields "show_exceptions").getD .null).isTruthy
  | _ => false

/-- A text in a configuration, or else the default one. -/
def textIn (configured : Except Fault Json) (name : String) : String :=
  let fields := match configured with
    | .ok (.object fields) => fields
    | _ => []
  match (Json.field? fields name).or (Json.field? Settings.defaults name) with
  | some (.str s) => s
  | _ => ""

/-- The environment variable that a start looks at. -/
def tokenVariable (files : Files) (o : CommandLine) : String :=
  textIn (configuration files o) "token_env"

/-- The folder that a session writes its script to. -/
def scriptFolder (files : Files) (o : CommandLine) : String :=
  Files.folderOf (textIn (configuration files o) "source_path")

/-- Starts a session as the options say. -/
def start (environment : Settings.Environment) (files : Files) (o : CommandLine) :
    Except Fault Launch := do
  let configured ← configuration files o
  let configured ← (overrides o).foldlM (fun c (n, v) => override c n v) configured
  let rootLevel ← rootLevelOf configured
  let api : Api := { environment, files, journal := { fallback := rootLevel } }
  let (begun, api) := api.begin (some configured)
  begun
  return {
    options := o, rootLevel
    server := { api, showExceptions := showsExceptions configured } }

end Launch

end BlockWorkbench
