import BlockWorkbench.Number.Numeral
import BlockWorkbench.Text.Quoted

/-!
The options of the command line. Long names may be cut short as long as only one option is meant,
a value may follow its option after an equals sign, and one-letter options may be written as one
word. All words are sorted into options and others before any of them takes effect.
-/

namespace BlockWorkbench

structure CommandLine where
  debug : Bool := false
  /-- Whether connections from elsewhere are accepted. -/
  external : Bool := false
  port : Int := 8012
  configFile : Option String := none
  endpoint : Option String := none
  deriving DecidableEq, Repr

namespace CommandLine

inductive Switch where
  | help
  | debug
  | external
  | port
  | configFile
  | endpoint
  deriving DecidableEq, Repr

namespace Switch

/-- All spellings, in the order in which they are listed. -/
def spellings : List (String × Switch) := [
  ("-h", help), ("--help", help), ("-d", debug), ("--debug", debug), ("--external", external),
  ("-p", port), ("--port", port), ("-c", configFile), ("--config-file", configFile),
  ("--endpoint", endpoint)]

def ofSpelling? (s : String) : Option Switch := (spellings.find? (·.1 == s)).map (·.2)

/-- The spellings of an option, as complaints name it. -/
def title (s : Switch) : String :=
  "/".intercalate ((spellings.filter (·.2 == s)).map (·.1))

def takesValue : Switch → Bool
  | port | configFile | endpoint => true
  | help | debug | external => false

end Switch

/-- What is wrong with a command line. -/
inductive Complaint where
  | ambiguous (word : String) (spellings : List String)
  | uselessValue (s : Switch) (value : String)
  | missingValue (s : Switch)
  | badInteger (s : Switch) (value : String)
  | unrecognized (words : List String)
  deriving DecidableEq, Repr

def Complaint.message : Complaint → String
  | .ambiguous word spellings =>
    "ambiguous option: " ++ word ++ " could match " ++ ", ".intercalate spellings
  | .uselessValue s value =>
    "argument " ++ s.title ++ ": ignored explicit argument " ++ Text.quoted value
  | .missingValue s => "argument " ++ s.title ++ ": expected one argument"
  | .badInteger s value =>
    "argument " ++ s.title ++ ": invalid int value: " ++ Text.quoted value
  | .unrecognized words => "unrecognized arguments: " ++ " ".intercalate words

/-- Why the program is not run. -/
inductive Stop where
  | help
  | complaint (c : Complaint)
  deriving DecidableEq, Repr

/-- What a word of the command line is. -/
inductive Word where
  /-- A one-letter option, and what is written behind it in the same word. -/
  | letter (s : Switch) (rest : List Char)
  /-- An option by a longer name, and what is written behind an equals sign. -/
  | long (s : Switch) (value : Option String)
  /-- Something that looks like an option and is none. -/
  | unknown (text : String)
  | plain (text : String)
  /-- The mark behind which there are no options. -/
  | endOfOptions
  deriving DecidableEq, Repr

/-- A word cut at its first equals sign. -/
def cutAtEquals? (cs : List Char) : Option (String × String) :=
  if cs.contains '=' then
    some (String.ofList (cs.takeWhile (· != '=')),
      String.ofList ((cs.dropWhile (· != '=')).drop 1))
  else none

/-- The long options whose names start as given. -/
def longNames (start : String) : List (String × Switch) :=
  Switch.spellings.filter fun (n, _) => n.startsWith "--" && n.startsWith start

def isAnyDigit (c : Char) : Bool := (Text.digitValue? c).isSome

/-- Whether a word is a negative number, with a point or without. A line feed may follow. -/
def isNegativeNumber (cs : List Char) : Bool :=
  match if cs.getLast? = some '\n' then cs.dropLast else cs with
  | '-' :: rest =>
    match Number.splitMark (· == '.') rest with
    | (whole, none) => !whole.isEmpty && whole.all isAnyDigit
    | (whole, some fraction) =>
      !fraction.isEmpty && whole.all isAnyDigit && fraction.all isAnyDigit
  | _ => false

/-- A word that starts with a dash and is no option. -/
def readUnknown (cs : List Char) : Word :=
  if isNegativeNumber cs || cs.contains ' ' then .plain (String.ofList cs)
  else .unknown (String.ofList cs)

/-- A word that starts with two dashes: the name of an option, or the start of just one. -/
def readLong (cs : List Char) : Except Complaint Word :=
  let (name, value) := match cutAtEquals? cs with
    | some (name, value) => (name, some value)
    | none => (String.ofList cs, none)
  match Switch.ofSpelling? name with
  | some s => .ok (.long s value)
  | none =>
    match longNames name with
    | [] => .ok (readUnknown cs)
    | [(_, s)] => .ok (.long s value)
    | several => .error (.ambiguous (String.ofList cs) (several.map (·.1)))

/-- What a word is, if it stands in front of the end of options. -/
def readWord (text : String) : Except Complaint Word :=
  match text.toList with
  | '-' :: '-' :: rest => readLong ('-' :: '-' :: rest)
  | '-' :: c :: rest =>
    match Switch.ofSpelling? (String.ofList ['-', c]) with
    | some s => .ok (.letter s rest)
    | none => .ok (readUnknown ('-' :: c :: rest))
  | _ => .ok (.plain text)

def readWords : List String → Except Complaint (List Word)
  | [] => .ok []
  | text :: rest =>
    if text = "--" then .ok (.endOfOptions :: rest.map .plain)
    else do return (← readWord text) :: (← readWords rest)

/-- What one word sets: flags, and an option behind them that may have its value in the same word.
Letters that are no option are left over. -/
structure Setting where
  flags : List Switch := []
  last : Option Switch := none
  value : Option String := none
  leftover : Option String := none
  deriving DecidableEq, Repr

/-- An option with a value of its own. -/
def Setting.valued (s : Switch) (value : String) : Except Complaint Setting :=
  if s.takesValue then .ok { last := some s, value := some value }
  else .error (.uselessValue s value)

/-- A letter followed by others in the same word: flags are followed by further options, other
options by their value. -/
def Setting.ofLetters (s : Switch) : List Char → Except Complaint Setting
  | [] => .ok { last := some s }
  | '=' :: value => valued s (String.ofList value)
  | c :: rest =>
    if s.takesValue || c = '-' then valued s (String.ofList (c :: rest))
    else
      match Switch.ofSpelling? (String.ofList ['-', c]) with
      | some next => (ofLetters next rest).map fun x => { x with flags := s :: x.flags }
      | none => .ok { flags := [s], leftover := some (String.ofList ('-' :: c :: rest)) }

/-- What a word sets, if it is an option. -/
def Word.setting? : Word → Option (Except Complaint Setting)
  | letter s rest => some (Setting.ofLetters s rest)
  | long s none => some (.ok { last := some s })
  | long s (some value) => some (Setting.valued s value)
  | _ => none

/-- The option whose value has to be looked for in the next word. -/
def Setting.open? (x : Setting) : Option Switch :=
  if x.value.isNone then x.last.filter (·.takesValue) else none

/-- Sets one option. -/
def set (o : CommandLine) (s : Switch) (value : String) : Except Stop CommandLine :=
  match s with
  | .help => .error .help
  | .debug => .ok { o with debug := true }
  | .external => .ok { o with external := true }
  | .port =>
    match Number.readInt value with
    | .value n => .ok { o with port := n }
    | _ => .error (.complaint (.badInteger s value))
  | .configFile => .ok { o with configFile := some value }
  | .endpoint => .ok { o with endpoint := some value }

/-- Sets the flags from left to right, and then the option behind them. -/
def apply (o : CommandLine) (x : Setting) (value : String) : Except Stop CommandLine := do
  let o ← x.flags.foldlM (fun o s => o.set s "") o
  match x.last with
  | some s => o.set s value
  | none => return o

/-- The options that words set, the last one of a kind prevailing. What is left over is
complained about at the end. -/
def ofWords (o : CommandLine) (others : List String) : List Word → Except Stop CommandLine
  | [] => if others.isEmpty then .ok o else .error (.complaint (.unrecognized others))
  | .unknown text :: rest | .plain text :: rest => ofWords o (others ++ [text]) rest
  | .endOfOptions :: rest => ofWords o (others ++ ["--"]) rest
  | word :: rest =>
    match word.setting? with
    | none => ofWords o others rest
    | some (.error c) => .error (.complaint c)
    | some (.ok x) =>
      match x.open?, rest with
      | none, rest =>
        o.apply x (x.value.getD "") >>= fun o => ofWords o (others ++ x.leftover.toList) rest
      | some _, .plain value :: rest => o.apply x value >>= fun o => ofWords o others rest
      | some s, _ => .error (.complaint (.missingValue s))

/-- The options of a command line. -/
def read (arguments : List String) : Except Stop CommandLine :=
  match readWords arguments with
  | .error c => .error (.complaint c)
  | .ok words => ofWords {} [] words

/-- How the program is called. -/
def usage : String :=
  "usage: streamline [-h] [-d] [--external] [-p PORT] [-c CONFIG_FILE] [--endpoint ENDPOINT]"

/-- What the options mean. -/
def help : String := "\n".intercalate [
  usage, "", "streaming module editor server", "",
  "  -h, --help         say this and do nothing else",
  "  -d, --debug        record what is done in detail",
  "  --external         accept connections from elsewhere",
  "  -p, --port         the port to listen on",
  "  -c, --config-file  a JSON configuration to start with",
  "  --endpoint         the streaming service, in place of the configured one"]

end CommandLine

end BlockWorkbench
