import BlockWorkbench.MessagePack
import BlockWorkbench.Server.Arguments

/-!
The session as a web service: each request of the session can be made over HTTP. Results are
MessagePack unless JSON is asked for; errors are always MessagePack, and say what went wrong only
if the server is set to.
-/

namespace BlockWorkbench

structure Server where
  api : Api
  showExceptions : Bool := false

namespace Server

inductive Content where
  | empty
  | text (s : String)
  | packed (bytes : List UInt8)
  /-- What is said of an error, and where it came from if that is said at all. -/
  | failure (exception traceback : String)

structure Response where
  status : Nat
  contentType : String
  content : Content

/-- The forms in which results are sent. -/
inductive Form where
  | json
  | messagePack
  deriving DecidableEq, Repr

namespace Form

def contentType : Form → String
  | json => "application/json"
  | messagePack => "application/msgpack"

/-- The form that is asked for: without a wish MessagePack, and JSON for all unknown wishes. -/
def ofAccept : Option String → Form
  | none => messagePack
  | some wish => if wish = messagePack.contentType then messagePack else json

def content (form : Form) (d : Document) : Except Fault Content :=
  match form with
  | json => .ok (.text d.toJson.text)
  | messagePack => (MessagePack.pack d).map .packed

end Form

namespace Problem

def status : Problem → Nat
  | refused r => r.status
  | failed _ => 500

def literal : Problem → String
  | refused r => r.literal
  | failed f => f.literal

/-- The last line of what is said about where an error came from. -/
def line : Problem → String
  | refused r => r.kindName ++ ": " ++ r.title
  | failed f => f.kind.text ++ ": " ++ f.message

end Problem

def report (s : Server) (p : Problem) : Response where
  status := p.status
  contentType := Form.messagePack.contentType
  content := if s.showExceptions then .failure p.literal p.line else .failure "API exception" ""

/-- The answer to the question what can be done. -/
def optionsResponse : Response := ⟨200, "text/html; charset=utf-8", .empty⟩

/-- The names of all requests of the session. -/
def indexResponse : Response :=
  let names := Json.object [("methods", .list (Api.names.map .str))]
  ⟨200, Form.json.contentType, .text names.text⟩

def resultResponse (s : Server) (form : Form) (result : Except Fault Document) : Response :=
  match result >>= form.content with
  | .ok content => ⟨200, form.contentType, content⟩
  | .error f => s.report (.failed f)

/-- Makes a request of the session. What it changes stays changed even if the result cannot be
sent. -/
def call (s : Server) (entry : Api.Entry) (r : Request) : Response × Server :=
  match arguments r entry.name with
  | .error p => (s.report p, s)
  | .ok named =>
    let reply := s.api.call entry named
    (s.resultResponse (.ofAccept r.accept) reply.result, { s with api := reply.api })

/-- The answer with its content, even to a HEAD request. -/
def respond (s : Server) (r : Request) : Response × Server :=
  match Route.ofPath? r.path with
  | none => (s.report (.refused .notFound), s)
  | some route =>
    let method := Method.ofName r.method
    if !route.allows method then (s.report (.refused .methodNotAllowed), s)
    else if method = .options then (optionsResponse, s)
    else
      match route with
      | .index => (indexResponse, s)
      | .file => (s.report (.refused .notFound), s)
      | .call entry => s.call entry r

/-- The answer to a request; to a HEAD request there is none but its head. -/
def answer (s : Server) (r : Request) : Response × Server :=
  let (response, s) := s.respond r
  if Method.ofName r.method = .head then ({ response with content := .empty }, s)
  else (response, s)

/-- The bytes of a content as they are sent. -/
def Content.bytes : Content → List UInt8
  | empty => []
  | text s => s.toUTF8.toList
  | packed bytes => bytes
  | failure exception traceback =>
    MessagePack.dictHead 2 ++ MessagePack.packString "exception"
      ++ MessagePack.packString exception ++ MessagePack.packString "traceback"
      ++ MessagePack.packString traceback

end Server

end BlockWorkbench
