import BlockWorkbench.Api.Request
import BlockWorkbench.Url.Query

/-!
Where requests to the server lead. Every request of the session can be reached under its name and
under `RPC2`; the root lists them. There is a folder for files, which is empty.
-/

namespace BlockWorkbench.Server

inductive Method where
  | get
  | head
  | options
  | post
  | other
  deriving DecidableEq, Repr

/-- A method by name, in either case. -/
def Method.ofName (s : String) : Method :=
  match s.toUpper with
  | "GET" => get
  | "HEAD" => head
  | "OPTIONS" => options
  | "POST" => post
  | _ => other

inductive Route where
  | index
  | call (entry : Api.Entry)
  | file

namespace Route

def ofSegments? : List String → Option Route
  | [""] => some index
  | [name] => (Api.entryOf? name).map call
  | ["RPC2", name] => (Api.entryOf? name).map call
  | "static" :: first :: rest => if first = "" ∧ rest = [] then none else some file
  | _ => none

/-- The route of an escaped path; how many slashes it starts with makes no difference. -/
def ofPath? (path : String) : Option Route :=
  let cs := Url.decodeBytes (Url.unescape path.toList)
  ofSegments? (((cs.dropWhile (· == '/')).splitOn '/').map String.ofList)

/-- Only the requests of the session can be posted to; what can be got can be looked at. -/
def allows : Route → Method → Bool
  | _, .get | _, .head | _, .options => true
  | call _, .post => true
  | _, _ => false

end Route

end BlockWorkbench.Server
