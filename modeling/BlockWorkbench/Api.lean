import BlockWorkbench.Api.Request
import BlockWorkbench.Editor.Log
import BlockWorkbench.Editor.Requests

/-!
The requests of clients carried out on the session that they share. There is at most one session;
a request that needs one fails without it. Numbers and truth values may come as text.
-/

namespace BlockWorkbench

/-- The session that clients share, if there is one, and what is kept across sessions. -/
structure Api where
  editor : Option Editor := none
  journal : Journal := {}
  /-- What new sessions find around them. -/
  environment : Settings.Environment := []
  /-- The files as the session last left them. -/
  files : Files := {}
  /-- What earlier sessions asked the streaming service for. -/
  earlierCalls : List Stream.Call := []

namespace Api

def source : String := "streamline.web_gui.api"

/-- The version of the program. -/
def programVersion : String := "0.1.0"

/-- Truth values as text in queries. -/
def isYes (v : Json) : Bool :=
  match v with
  | .str s => ["1", "true", "yes", "on"].contains (Text.lower (Text.trim s))
  | v => v.isTruthy

/-- An integer, or null. -/
def intOrNull : Json → Except Fault Json
  | .null => .ok .null
  | v => do return .int (← v.toInt)

/-- Arguments of a call: the slot of an object that names one, everything else as it is. -/
def argumentOf : Json → Except Fault Argument
  | .object fields =>
    match Json.field? fields "slot" with
    | some slot => do return .cached (.int (← slot.toInt))
    | none => .ok (.given (.object fields))
  | v => .ok (.given v)

def argumentsOf (args : Json) : Except Fault (List Argument) := do
  if args.isTruthy then (← args.elements).mapM argumentOf else return []

/-- What came of a request. -/
structure Reply where
  result : Except Fault Document
  api : Api

/-- Takes over the session after a call. -/
def settled {α : Type} (api : Api) (reply : Editor.Reply α)
    (answer : α → Except Fault Document) : Reply :=
  { result := reply.result >>= answer
    api := { api with
      editor := some reply.editor, journal := api.journal.noteAll reply.records
      files := reply.editor.files } }

/-- An answer that tells nothing but that the request was carried out. -/
def done {α : Type} (_ : α) : Except Fault Document := .ok (.bool true)

def jsonAnswer (v : Json) : Except Fault Document := .ok (.ofJson v)

/-- A call of the session whose arguments may be of no use. -/
def withArguments {α β : Type} (e : Editor) (args : Except Fault α)
    (call : α → Editor.Reply β) : Editor.Reply β :=
  match args with
  | .ok a => call a
  | .error f => { result := .error f, editor := e }

/-- A call that is skipped if the value for it is null. -/
def unlessNull (v : Json) (call : Editor → Json → Editor.Reply Unit) (before : Editor.Reply Unit) :
    Editor.Reply Unit :=
  match before.result, Editor.given? v with
  | .ok (), some v =>
    let after := call before.editor v
    { after with records := before.records ++ after.records }
  | _, _ => before

/-- Sets what is given of a module: the code first, then the inputs, then the policy. -/
def updateModule (e : Editor) (id : Int) (code inputs policy : Json) : Editor.Reply Unit :=
  let id := Json.int id
  let start : Editor.Reply Unit := { result := .ok (), editor := e }
  unlessNull policy (·.setUpdatePolicy id ·)
    (unlessNull inputs (·.setInputs id ·) (unlessNull code (·.setCode id ·) start))

/-- Adds a module of a kind given by name. -/
def addModule (e : Editor) (kind name code inputs policy : Json) : Editor.Reply Json :=
  match kind with
  | .str "map" => e.addMap name code inputs
  | .str "store" => e.addStore name code inputs policy
  | kind => { result := .error (.badModuleKind kind), editor := e }

/-- The modules as definitions with their ids. -/
def modulesDocument (entries : List (Scalar × Module)) : Document :=
  .list (entries.map fun (id, m) =>
    .ofJson (.object (("id", id.toJson) :: m.definitionFields)))

/-- The script of the graph, or what is wrong with its inputs. -/
def sourceDocument (e : Editor) : Except Fault Document :=
  match e.script with
  | .ok text => .ok (.fields [("source", .str text), ("errors", .list [])])
  | .error (.unresolvedInput ..) => do
    let complaints ← e.complaints
    return .fields [("source", .null), ("errors", .list (complaints.map fun (c : String) => .str c))]
  | .error f => .error f

def cacheDocument (e : Editor) : Except Fault Document := do
  let slots ← e.cache.snapshot.mapM fun (n, v) => do return (toString n, ← e.store.send v)
  return .fields slots

/-- The messages to be shown, each in the form in which clients get it. -/
def messagesReply (e : Editor) (search : Json Points) (hideEmpty : Json) : Editor.Reply Document :=
  let reply := e.messages search (isYes hideEmpty)
  { reply with
    result := do
      let shown ← reply.result
      return .list (← shown.mapM (·.transport reply.editor.store.send)) }

/-- Carries out a request on a session. -/
def performWith (api : Api) (e : Editor) (request : Request) : Reply :=
  let look (result : Except Fault Document) : Reply := { result, api }
  match request with
  | .version => look (jsonAnswer (.object [("version", .str programVersion)]))
  | .modules => look (e.modules.map modulesDocument)
  | .addModule kind name code inputs policy =>
    api.settled (addModule e kind name code inputs policy) jsonAnswer
  | .removeModule id =>
    api.settled (withArguments e id.toInt fun n => e.removeModule (.int n)) done
  | .renameModule id name =>
    api.settled (withArguments e id.toInt fun n => e.renameModule (.int n) name) done
  | .updateModule id code inputs policy =>
    api.settled (withArguments e id.toInt fun n => updateModule e n code inputs policy) done
  | .source => look (sourceDocument e)
  | .validate => look (e.complaints.map fun cs => .list (cs.map fun (c : String) => .str c))
  | .writeSource => api.settled (e.writeScript .null) jsonAnswer
  | .evaluateGraph => api.settled e.evaluateGraph done
  | .evaluate source => api.settled (e.evaluate source) done
  | .evaluateModule id =>
    api.settled (withArguments e id.toInt fun n => e.evaluateModule (.int n)) done
  | .callFunction name args =>
    api.settled (withArguments e (argumentsOf args) (e.callFunction name)) done
  | .build => api.settled e.build done
  | .reset clearScope clearUnit =>
    api.settled (e.reset (.bool (isYes clearScope)) (.bool (isYes clearUnit))) done
  | .runStream start stop moduleName =>
    let range : Except Fault (Json × Json) := do return (← intOrNull start, ← intOrNull stop)
    api.settled (withArguments e range fun (start, stop) => e.runStream start stop moduleName) done
  | .fetchBlock blockNumber cacheSlot =>
    let block : Except Fault (Int × Int) := do
      return (← blockNumber.toInt, ← cacheSlot.toInt)
    api.settled (withArguments e block fun (n, slot) => e.fetchBlock (.int n) (.int slot)) done
  | .blockCache => look (cacheDocument e)
  | .messages search hideEmpty => api.settled (messagesReply e search hideEmpty) .ok
  | .clearMessages =>
    api.settled { result := .ok (), editor := e.clearMessages : Editor.Reply Unit } done

/-- What is said of a request when there is no session. The version can be had without one, and
the arguments of a call are looked at before. -/
def performAlone (api : Api) (request : Request) : Reply :=
  match request with
  | .version => { result := jsonAnswer (.object [("version", .str programVersion)]), api }
  | .callFunction _ args =>
    { result := (argumentsOf args) >>= fun _ => .error .notInitialized, api }
  | _ => { result := .error .notInitialized, api }

/-- Carries out a request. -/
def perform (api : Api) (request : Request) : Reply :=
  match api.editor with
  | some e => api.performWith e request
  | none => api.performAlone request

/-- Carries out the request of a name with named arguments. -/
def call (api : Api) (entry : Entry) (named : List (Points × Json Points)) : Reply :=
  match entry.request named with
  | .ok request => api.perform request
  | .error f => { result := .error f, api }

/-! ### Sessions -/

/-- Stops the session, if there is one; it stays where it is. -/
def stopSession (api : Api) : Api :=
  match api.editor with
  | none => api
  | some e =>
    let reply := e.stop
    { api with editor := some reply.editor, journal := api.journal.noteAll reply.records }

/-- Puts a session in the place of the present one, which has been stopped. -/
def install (api : Api) (e : Editor) : Except Fault Unit × Api :=
  let reply := e.start
  match reply.result with
  | .error f => (.error f, api)
  | .ok () =>
    let calls := (api.editor.map (·.streaming.client.calls)).getD []
    let records := reply.records ++ [⟨.info, source, "editor session started"⟩]
    (.ok (), { api with
      editor := some reply.editor, earlierCalls := api.earlierCalls ++ calls
      journal := api.journal.noteAll records })

/-- Takes over a session that has not been started. -/
def adopt (api : Api) (e : Editor) : Except Fault Unit × Api := api.stopSession.install e

/-- A session with settings, which streams from the web. -/
def newSession (api : Api) (settings : Settings) : Editor where
  settings := settings
  streaming := { client := { service := .web [] } }
  files := api.files

/-- Starts a session with a configuration, or with the default one. The present session is
stopped first, even if the configuration turns out to be of no use. -/
def begin (api : Api) (configuration : Option Json) : Except Fault Unit × Api :=
  let api := api.stopSession
  let configuration : Except Fault Json := match configuration with
    | some v => .ok v
    | none => (Settings.loadConfiguration (.str "config") true).map .object
  match configuration with
  | .error f => (.error f, api)
  | .ok configuration =>
    let (settings, journal) :=
      Settings.apply api.environment (some configuration) none api.journal
    let api := { api with journal }
    match settings with
    | .error f => (.error f, api)
    | .ok settings => api.install (api.newSession settings)

/-- Stops the session and lets go of it. -/
def shutdown (api : Api) : Api :=
  let api := api.stopSession
  let calls := (api.editor.map (·.streaming.client.calls)).getD []
  { api with editor := none, earlierCalls := api.earlierCalls ++ calls }

/-- What all sessions asked the streaming service for. -/
def calls (api : Api) : List Stream.Call :=
  api.earlierCalls ++ (api.editor.map (·.streaming.client.calls)).getD []

end Api

end BlockWorkbench
