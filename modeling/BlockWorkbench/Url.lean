import BlockWorkbench.Number.Numeral
import BlockWorkbench.Text.Quoted
import BlockWorkbench.Url.Host

/-!
URLs, read into their parts and written back in a normal form: scheme and host in lower case, no
port that the scheme implies, no dots as steps of the path, everything else escaped where it has
to be.
-/

namespace BlockWorkbench

structure Url where
  scheme : String
  userinfo : String
  host : String
  port : Option Int
  path : String
  query : Option String
  fragment : Option String
  deriving Repr

namespace Url

/-- Why a text is not a URL. -/
inductive Fault where
  | tooLong
  | controlCharacter (c : Char) (index : Nat)
  | badHost (cause : HostFault) (host : String)
  | badPort (port : String)
  | pathBehindHost
  | pathWithHost
  | pathWithScheme

def Fault.message : Fault → String
  | tooLong => "URL too long"
  | controlCharacter c index =>
    "Invalid non-printable ASCII character in URL, " ++ Text.quoted (String.ofList [c])
      ++ s!" at position {index}."
  | badHost .badFourByteAddress host => "Invalid IPv4 address: " ++ Text.quoted host
  | badHost .badSixteenByteAddress host => "Invalid IPv6 address: " ++ Text.quoted host
  | badHost .badName host => "Invalid IDNA hostname: " ++ Text.quoted host
  | badPort port => "Invalid port: " ++ Text.quoted port
  | pathBehindHost => "For absolute URLs, path must be empty or begin with '/'"
  | pathWithHost => "Relative URLs cannot have a path starting with '//'"
  | pathWithScheme => "Relative URLs cannot have a path starting with ':'"

/-- The parts of a URL as they are written. -/
structure Parts where
  scheme : String
  authority : String
  path : String
  query : Option String
  fragment : Option String
  deriving Repr

def Parts.isSchemeChar (c : Char) : Bool := c.isAlphanum || c == '+' || c == '-' || c == '.'

/-- The scheme of a text and what follows the colon behind it; a scheme may be empty. -/
def Parts.splitScheme (cs : List Char) : String × List Char :=
  let name := cs.takeWhile isSchemeChar
  match cs.dropWhile isSchemeChar with
  | ':' :: rest =>
    if name.isEmpty || (name.head?.map Char.isAlpha).getD false then (String.ofList name, rest)
    else ("", cs)
  | _ => ("", cs)

/-- Divides a text where the standard's characters do; every text can be divided. -/
def Parts.ofText (s : String) : Parts :=
  let (scheme, rest) := splitScheme s.toList
  let (rest, fragment) := Number.splitMark (· == '#') rest
  let (rest, query) := Number.splitMark (· == '?') rest
  let (authority, path) := match rest with
    | '/' :: '/' :: rest => (rest.takeWhile (· != '/'), rest.dropWhile (· != '/'))
    | _ => ([], rest)
  { scheme, authority := String.ofList authority, path := String.ofList path
    query := query.map String.ofList, fragment := fragment.map String.ofList }

/-- The parts of an authority: who asks, the host, and what stands for the port. The last at
sign ends the first part. -/
def splitAuthority (cs : List Char) : List Char × List Char × List Char :=
  let (rest, user) := match Number.splitMark (· == '@') cs.reverse with
    | (rest, some user) => (rest.reverse, user.reverse)
    | (_, none) => (cs, [])
  let (host, rest) :=
    if rest.head? = some '[' && rest.contains ']' then
      let behind := rest.reverse.takeWhile (· != ']')
      (rest.take (rest.length - behind.length), behind.reverse)
    else (rest.takeWhile (· != ':'), rest.dropWhile (· != ':'))
  (user, host, match rest with
    | ':' :: port => port
    | port => port)

/-- The ports that schemes imply. -/
def defaultPorts : List (String × Int) :=
  [("ftp", 21), ("http", 80), ("https", 443), ("ws", 80), ("wss", 443)]

def normalPort (scheme port : String) : Except Fault (Option Int) :=
  if port = "" then .ok none
  else
    match Number.readInt port with
    | .value n => .ok (if defaultPorts.contains (scheme, n) then none else some n)
    | _ => .error (.badPort port)

def checkPath (hasScheme hasAuthority : Bool) (path : String) : Except Fault Unit :=
  if hasAuthority && path != "" && !path.startsWith "/" then .error .pathBehindHost
  else if hasScheme || hasAuthority then .ok ()
  else if path.startsWith "//" then .error .pathWithHost
  else if path.startsWith ":" then .error .pathWithScheme
  else .ok ()

/-- The segments of a path with its steps taken: a dot stays, two dots go back. -/
def walk (walked : List (List Char)) : List (List Char) → List (List Char)
  | [] => walked
  | segment :: rest =>
    if segment = ['.'] then walk walked rest
    else if segment = ['.', '.'] then
      walk (if walked = [[]] then walked else walked.dropLast) rest
    else walk (walked ++ [segment]) rest

def normalPath (path : String) : String :=
  String.ofList (['/'].intercalate (walk [] (splitAt (· == '/') path.toList)))

/-- The URL that parts make up. -/
def ofParts (p : Parts) : Except Fault Url := do
  let (user, host, port) := splitAuthority p.authority.toList
  let scheme := Text.lower p.scheme
  let userinfo := String.ofList (escapeChars isSafeInUserinfo user)
  let host ← match normalHost (String.ofList host) with
    | .ok host => pure host
    | .error cause => throw (.badHost cause (String.ofList host))
  let port ← normalPort p.scheme (String.ofList port)
  let hasScheme := scheme != ""
  let hasAuthority := userinfo != "" || host != "" || port.isSome
  checkPath hasScheme hasAuthority p.path
  let path := if hasScheme || hasAuthority then normalPath p.path else p.path
  return {
    scheme, userinfo, host, port
    path := escape isSafeInPath path
    query := p.query.map (escape isSafeInQuery)
    fragment := p.fragment.map (escape isSafeInFragment) }

/-- Longer texts are not looked at. -/
def lengthLimit : Nat := 65536

def isControl (c : Char) : Bool := c.toNat < 0x20 || c.toNat == 0x7f

def read (s : String) : Except Fault Url :=
  if lengthLimit < s.length then .error .tooLong
  else
    match s.toList.find? isControl with
    | some c => .error (.controlCharacter c (s.toList.idxOf c))
    | none => ofParts (.ofText s)

def authority (u : Url) : String :=
  (if u.userinfo = "" then "" else u.userinfo ++ "@")
    ++ (if u.host.toList.contains ':' then "[" ++ u.host ++ "]" else u.host)
    ++ u.port.elim "" fun n => ":" ++ toString n

def text (u : Url) : String :=
  (if u.scheme = "" then "" else u.scheme ++ ":")
    ++ (if u.authority = "" then "" else "//" ++ u.authority)
    ++ u.path ++ u.query.elim "" ("?" ++ ·) ++ u.fragment.elim "" ("#" ++ ·)

/-- What is asked of the host: the path and the query. -/
def target (u : Url) : String :=
  (if u.path = "" then "/" else u.path) ++ u.query.elim "" ("?" ++ ·)

/-- The URL with another target. -/
def withTarget (u : Url) (target : String) : Except Fault Url :=
  let (path, query) := Number.splitMark (· == '?') target.toList
  ofParts {
    scheme := u.scheme, authority := u.authority, path := String.ofList path
    query := query.map String.ofList, fragment := u.fragment }

/-- The URL with a slash at the end of its target. -/
def asFolder (u : Url) : Except Fault Url :=
  if u.target.endsWith "/" then .ok u else u.withTarget (u.target ++ "/")

/-- The URL of something inside a folder. -/
def inFolder (folder : Url) (name : String) : Except Fault Url :=
  folder.withTarget (folder.target ++ name)

/-- Name and password of the one who asks, if either is given. -/
def credentials? (u : Url) : Option (List UInt8 × List UInt8) :=
  let (name, password) := Number.splitMark (· == ':') u.userinfo.toList
  let name := unescape name
  let password := unescape (password.getD [])
  if name.isEmpty && password.isEmpty then none else some (name, password)

end Url

end BlockWorkbench
