import BlockWorkbench.Server

/-!
Requests and answers on one line each, for use at a terminal: a method, a target and perhaps a JSON
body are answered with a status and JSON.
-/

namespace BlockWorkbench.Server

/-- The text before the first blank, and the text behind it. -/
def cutAtBlank (cs : List Char) : List Char × List Char :=
  (cs.takeWhile (· != ' '), (cs.dropWhile (· != ' ')).dropWhile (· == ' '))

def Request.ofLine (line : String) : Request :=
  let (method, rest) := cutAtBlank (Text.trimChars line.toList)
  let (target, body) := cutAtBlank rest
  { Request.ofTarget (String.ofList target) with
    method := String.ofList method, body := String.ofList body
    contentType := some Form.json.contentType, accept := some Form.json.contentType }

def Content.line : Content → String
  | empty => ""
  | text s => s
  | packed bytes => String.ofList (bytes.flatMap fun b => Text.hexDigits 2 b.toNat)
  | failure exception _ => exception

def Response.line (r : Response) : String := s!"{r.status} " ++ r.content.line

end BlockWorkbench.Server
