import BlockWorkbench.Api
import BlockWorkbench.Http
import BlockWorkbench.Server.Route

/-!
The named arguments that a request to the server brings along: those of its query if it is a GET
request, and otherwise those of the JSON object that is its body.
-/

namespace BlockWorkbench.Server

structure Request where
  method : String := "GET"
  path : String
  query : List (String × String) := []
  body : String := ""
  contentType : Option String := none
  accept : Option String := none
  deriving Repr

/-- The path and the query of a target; what follows a number sign is no part of either. -/
def Request.ofTarget (target : String) : Request :=
  let cs := target.toList.takeWhile (· != '#')
  { path := String.ofList (cs.takeWhile (· != '?'))
    query := Url.readQuery (String.ofList ((cs.dropWhile (· != '?')).drop 1)) }

/-- Requests that the server itself turns down. -/
inductive Refusal where
  | badRequest
  | notFound
  | methodNotAllowed
  | unsupportedMediaType
  deriving DecidableEq, Repr

namespace Refusal

def status : Refusal → Nat
  | badRequest => 400
  | notFound => 404
  | methodNotAllowed => 405
  | unsupportedMediaType => 415

def kindName : Refusal → String
  | badRequest => "BadRequest"
  | notFound => "NotFound"
  | methodNotAllowed => "MethodNotAllowed"
  | unsupportedMediaType => "UnsupportedMediaType"

def title (r : Refusal) : String := s!"{r.status}: " ++ Http.phrase r.status

def literal (r : Refusal) : String := "<" ++ r.kindName ++ " '" ++ r.title ++ "'>"

end Refusal

/-- Why a request was not answered. -/
inductive Problem where
  | refused (r : Refusal)
  | failed (f : Fault)

/-- Whether a content type means JSON; its parameters do not matter. -/
def isJsonType (contentType : String) : Bool :=
  let kind := Text.lower (Text.trim (String.ofList (contentType.toList.takeWhile (· != ';'))))
  kind == "application/json" || (kind.startsWith "application/" && kind.endsWith "+json")

/-- A body without the byte order mark that it may start with. -/
def withoutMark (body : String) : String :=
  match body.toList with
  | '\ufeff' :: rest => String.ofList rest
  | _ => body

/-- The arguments in a body. An empty one brings none, whatever its type. -/
def bodyArguments (callee : String) (contentType : Option String) (body : String) :
    Except Problem (List (Points × Json Points)) :=
  if body = "" then .ok []
  else if !(contentType.map isJsonType).getD false then .error (.refused .unsupportedMediaType)
  else
    match Json.read (withoutMark body) with
    | .error (.tooDeep isObject) => .error (.failed (.badJson body (.tooDeep isObject)))
    | .error _ => .error (.refused .badRequest)
    | .ok (.object fields) => .ok fields
    | .ok v => .error (.failed (.notMapping (Api.source ++ "." ++ callee) v.typeName))

def arguments (r : Request) (callee : String) :
    Except Problem (List (Points × Json Points)) :=
  if Method.ofName r.method = .get then
    .ok (r.query.map fun (n, v) => (.ofString n, .str (.ofString v)))
  else bodyArguments callee r.contentType r.body

end BlockWorkbench.Server
