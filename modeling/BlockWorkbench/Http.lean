import BlockWorkbench.Json.Basic
import BlockWorkbench.Url

/-!
Answers to HTTP requests: what their status means, and what is said about one that does not mean
success.
-/

namespace BlockWorkbench.Http

/-- The standard phrases for statuses. -/
def phrases : List (Int × String) := [
  (100, "Continue"), (101, "Switching Protocols"), (102, "Processing"), (103, "Early Hints"),
  (200, "OK"), (201, "Created"), (202, "Accepted"), (203, "Non-Authoritative Information"),
  (204, "No Content"), (205, "Reset Content"), (206, "Partial Content"), (207, "Multi-Status"),
  (208, "Already Reported"), (226, "IM Used"), (300, "Multiple Choices"),
  (301, "Moved Permanently"), (302, "Found"), (303, "See Other"), (304, "Not Modified"),
  (305, "Use Proxy"), (307, "Temporary Redirect"), (308, "Permanent Redirect"),
  (400, "Bad Request"), (401, "Unauthorized"), (402, "Payment Required"), (403, "Forbidden"),
  (404, "Not Found"), (405, "Method Not Allowed"), (406, "Not Acceptable"),
  (407, "Proxy Authentication Required"), (408, "Request Timeout"), (409, "Conflict"),
  (410, "Gone"), (411, "Length Required"), (412, "Precondition Failed"),
  (413, "Request Entity Too Large"), (414, "Request-URI Too Long"),
  (415, "Unsupported Media Type"), (416, "Requested Range Not Satisfiable"),
  (417, "Expectation Failed"), (418, "I'm a teapot"), (421, "Misdirected Request"),
  (422, "Unprocessable Entity"), (423, "Locked"), (424, "Failed Dependency"), (425, "Too Early"),
  (426, "Upgrade Required"), (428, "Precondition Required"), (429, "Too Many Requests"),
  (431, "Request Header Fields Too Large"), (451, "Unavailable For Legal Reasons"),
  (500, "Internal Server Error"), (501, "Not Implemented"), (502, "Bad Gateway"),
  (503, "Service Unavailable"), (504, "Gateway Timeout"), (505, "HTTP Version Not Supported"),
  (506, "Variant Also Negotiates"), (507, "Insufficient Storage"), (508, "Loop Detected"),
  (510, "Not Extended"), (511, "Network Authentication Required")]

def phrase (status : Int) : String :=
  ((phrases.find? (·.1 == status)).map (·.2)).getD ""

def isSuccess (status : Int) : Bool := 200 ≤ status && status ≤ 299

/-- The statuses that send a request elsewhere. -/
def isRedirect (status : Int) : Bool := [301, 302, 303, 307, 308].contains status

/-- What the first digit of a status that is no success means. -/
def statusClass (status : Int) : String :=
  match status / 100 with
  | 1 => "Informational response"
  | 3 => "Redirect response"
  | 4 => "Client error"
  | 5 => "Server error"
  | _ => "Invalid status code"

/-- Where a status is explained. -/
def explanationPage (status : Int) : String :=
  "https://developer.mozilla.org/en-US/docs/Web/HTTP/Status/" ++ toString status

/-- What is said about an answer that is no success. -/
def failureText (status : Int) (url : String) (location : Option String) : String :=
  statusClass status ++ " '" ++ toString status ++ " " ++ phrase status ++ "' for url '" ++ url
    ++ "'\n" ++ location.elim "" (fun l => "Redirect location: '" ++ l ++ "'\n")
    ++ "For more information check: " ++ explanationPage status

/-- A header, whose name may be written in either case. -/
def header? (headers : List (String × String)) (name : String) : Option String :=
  (headers.find? fun h => h.1.toLower == name.toLower).map (·.2)

/-- Where an answer sends its request, if it does. -/
def redirectLocation? (status : Int) (headers : List (String × String)) : Option String :=
  if isRedirect status then header? headers "location" else none

/-- Why an answer is refused, if it is. A place to go to has to be a URL, even if nobody goes
there. -/
def refusal? (url : Url) (status : Int) (headers : List (String × String)) : Option String :=
  let location := redirectLocation? status headers
  match location.map Url.read with
  | some (.error f) => some ("Invalid URL in location header: " ++ f.message ++ ".")
  | _ => if isSuccess status then none else some (failureText status url.text location)

end BlockWorkbench.Http
