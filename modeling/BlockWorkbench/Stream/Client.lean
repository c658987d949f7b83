import BlockWorkbench.ErrorKind
import BlockWorkbench.Http
import BlockWorkbench.Json.Writer
import BlockWorkbench.Message.Basic
import BlockWorkbench.Text.Base64
import BlockWorkbench.Text.Lines
import BlockWorkbench.Text.Blank

/-!
Clients of a streaming service. A client opens one session at a time and gets a sequence of
records, which may break off with an error. There are two kinds: one plays sessions that are
given, one posts requests to a web service and plays its answers. Either kind remembers what it
asked for.
-/

namespace BlockWorkbench.Stream

/-- An error of the service or on the way to it. -/
structure Failure where
  kind : ErrorKind
  text : String

/-- What a session gives. Records are JSON text unless the service is broken. -/
inductive Entry where
  | record (v : Json)
  | failure (f : Failure)

inductive Session where
  | refused (f : Failure)
  | opened (entries : List Entry)

/-- A part of the body of an answer. -/
inductive Chunk where
  | text (s : String)
  | failure (f : Failure)

/-- An answer of a web service, or why there is none. -/
inductive Reply where
  | failed (f : Failure)
  | answered (status : Int) (headers : List (String × String)) (chunks : List Chunk)

inductive Service where
  | scripted (sessions : List Session)
  | web (replies : List Reply)

/-- A request as it is posted to a web service. -/
structure Post where
  url : String
  authorization : Option String
  body : Json
  method : String := "POST"
  accept : String := "application/x-ndjson"
  contentType : String := "application/json"

/-- What was asked for. -/
inductive Call where
  | session (request : RangeRequest)
  | post (p : Post)

structure Client where
  service : Service := .scripted []
  calls : List Call := []

/-- Why there is no session. -/
inductive OpenFailure where
  /-- The service cannot be reached or refuses. -/
  | dropped (text : String)
  /-- Something else went wrong. -/
  | broken
  /-- An error was raised that is no exception. -/
  | escaped

/-! ### Lines of a body -/

/-- The text of chunks up to a failure, and the failure. -/
def bodyText : List Chunk → String × Option Failure
  | [] => ("", none)
  | .failure f :: _ => ("", some f)
  | .text s :: rest => let (more, failure) := bodyText rest; (s ++ more, failure)

/-- The lines of a body that are not blank. Of a body that breaks off, the unfinished line is
lost. -/
def bodyEntries (chunks : List Chunk) : List Entry :=
  let entries (ls : List String) := (ls.filter (!Text.isAllBlank ·)).map fun l => .record (.str l)
  match bodyText chunks with
  | (body, none) => entries (Text.lines body)
  | (body, some f) => entries (Text.finishedLines body) ++ [.failure f]

/-! ### Requests to a web service -/

/-- The path of the service below an endpoint. -/
def servicePath : String := "v1/stream"

/-- An endpoint without the slashes at its end. -/
def trimEndpoint (s : String) : String :=
  String.ofList ((s.toList.reverse.dropWhile (· == '/')).reverse)

/-- The URL of an endpoint, which has to be one of the web. -/
def readEndpoint : Json → Except String Url
  | .str s => do
    let url ← (Url.read s).mapError Url.Fault.message
    if url.scheme = "http" ∨ url.scheme = "https" then
      (Url.read (trimEndpoint s) >>= Url.asFolder).mapError Url.Fault.message
    else throw "expected an http or https url"
  | v =>
    throw ("Invalid type for url.  Expected str or httpx.URL, got <class '" ++ v.typeName
      ++ "'>: " ++ v.literal)

/-- The header that a token is sent in, if there is one. Only ASCII can be sent, and nothing that is
nested too deep. -/
def bearerOf (token : Json) : Except OpenFailure (Option String) :=
  let text := "Bearer " ++ token.plain
  if !token.isTruthy then .ok none
  else if token.isTooDeep then .error .broken
  else if text.toList.all (·.toNat < 0x80) then .ok (some text)
  else .error .broken

mutual

/-- Whether a value can be sent: all its floats have to be numbers. -/
def isSendable : Json → Bool
  | .float x => x.isFinite
  | .list items => areSendable items
  | .object fields => fieldsAreSendable fields
  | _ => true

def areSendable : List Json → Bool
  | [] => true
  | v :: rest => isSendable v && areSendable rest

def fieldsAreSendable : List (String × Json) → Bool
  | [] => true
  | (_, v) :: rest => isSendable v && fieldsAreSendable rest

end

def requestBody (r : RangeRequest) : Json :=
  .object [
    ("package", r.package), ("module", r.moduleName), ("start_block", r.start),
    ("stop_block", r.stop)]

/-- The header for a name and password in the URL, which goes before a token. -/
def basicAuthorization? (url : Url) : Option String :=
  url.credentials?.map fun (name, password) =>
    "Basic " ++ String.ofList (Text.base64 (name ++ [':'.toNat.toUInt8] ++ password))

/-- The text of a session that an endpoint does not grant. -/
def openText (endpoint : Json) (text : String) : String :=
  "Failed to open stream at " ++ endpoint.plain ++ ": " ++ text

/-- The request that is posted for a range. -/
def postOf (folder : Url) (r : RangeRequest) : Except OpenFailure (Url × Post) := do
  let url ← (folder.inFolder servicePath).mapError fun f =>
    OpenFailure.dropped (openText r.endpoint f.message)
  let bearer ← bearerOf r.token
  let body := requestBody r
  if !isSendable body || body.isTooDeep then throw .broken
  return (url, {
    url := url.text, authorization := (basicAuthorization? url).or bearer, body })

/-! ### Sessions -/

/-- A failure of the connection says for itself what it is; one of the request is put into words
here; any other is not expected. -/
def OpenFailure.ofReply (endpoint : Json) (f : Failure) : OpenFailure :=
  if f.kind.isHttp ∨ f.kind = .invalidUrl then .dropped (openText endpoint f.text)
  else if f.kind.isConnection then .dropped f.text
  else if f.kind.isException then .broken
  else .escaped

/-- The session that an answer opens. -/
def sessionOf (endpoint : Json) (url : Url) : Reply → Except OpenFailure (List Entry)
  | .failed f => .error (.ofReply endpoint f)
  | .answered status headers chunks =>
    match Http.refusal? url status headers with
    | some text => .error (.dropped (openText endpoint text))
    | none => .ok (bodyEntries chunks)

/-- An answer with nothing in it. -/
def Reply.empty : Reply := .answered 200 [] []

namespace Client

/-- Posts a request and takes the next answer. A token or an endpoint that is nested too deep cannot
even be written down. -/
def openWeb (c : Client) (replies : List Reply) (r : RangeRequest) :
    Except OpenFailure (List Entry) × Client :=
  if r.token.isTooDeep || r.endpoint.isTooDeep then (.error .broken, c)
  else
    match readEndpoint r.endpoint with
    | .error text =>
      (.error (.dropped ("Invalid stream endpoint " ++ r.endpoint.literal ++ ": " ++ text)), c)
    | .ok folder =>
      match postOf folder r with
      | .error f => (.error f, c)
      | .ok (url, post) =>
        (sessionOf r.endpoint url (replies.head?.getD .empty),
          { service := .web replies.tail, calls := c.calls ++ [.post post] })

/-- Takes the next session. -/
def openScripted (c : Client) (sessions : List Session) (r : RangeRequest) :
    Except OpenFailure (List Entry) × Client :=
  let c := { service := .scripted sessions.tail, calls := c.calls ++ [.session r] }
  match sessions.head? with
  | none => (.ok [], c)
  | some (.opened entries) => (.ok entries, c)
  | some (.refused f) =>
    (.error (if f.kind.isConnection then .dropped f.text
      else if f.kind.isException then .broken else .escaped), c)

/-- Opens a session. When there are no sessions or answers left, it is an empty one. -/
def openSession (c : Client) (r : RangeRequest) : Except OpenFailure (List Entry) × Client :=
  match c.service with
  | .scripted sessions => c.openScripted sessions r
  | .web replies => c.openWeb replies r

end Client

end BlockWorkbench.Stream
