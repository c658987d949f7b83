import BlockWorkbench.ErrorKind
import BlockWorkbench.Order
import BlockWorkbench.Json.Literal
import BlockWorkbench.Json.Reader

/-!
What can go wrong in a session, by cause. The kind, the arguments and the text of an error are
functions of its cause.
-/

namespace BlockWorkbench

inductive Fault where
  -- modules and graphs
  | duplicateName (name : String)
  | blankName
  | reservedName
  | badPolicy (policy : Json)
  | notAStore (name : String)
  | unknownKind (kind : Json)
  | versionMismatch
  | missingKey (key : Json)
  | missingModule (id : Json)
  | unresolvedInput (module : String) (input : Json)
  | unorderedIds (later former : String)
  | textId
  -- values of a wrong type
  | unhashable (typeName : String)
  | notIterable (typeName : String)
  | entryLength (index length : Nat)
  | entryNotSequence (index : Nat)
  | noAttribute (typeName member : String)
  | notText (typeName : String)
  | notAString (typeName : String)
  | notJoined (index : Nat) (typeName : String)
  | notRepeatable (typeName : String)
  | listIndex
  | noItemAssignment (typeName : String)
  -- calls
  | keywordNotText
  | unexpectedArgument (callee : String) (name : Points)
  | repeatedArgument (callee name : String)
  | missingArguments (callee : String) (names : List String)
  | notMapping (callee typeName : String)
  -- numbers
  | badInteger (text : String)
  | integerTooLong (digits : Nat)
  | integerTooLongToWrite
  | notInteger (typeName : String)
  | nanToInteger
  | infinityToInteger
  | integerOutOfRange
  -- orders
  | order (cause : Order.Fault String)
  | linkTooShort (length : Nat)
  | linkTooLong
  -- settings
  | unknownLevel (name : String)
  | badLevel (value : Json)
  | missingPackage (name : String)
  | notAPackage (name parent : String)
  -- sessions
  | startedTwice
  | notInitialized
  | badModuleKind (kind : Json)
  | missingFile (path : String)
  | isFolder (path : String)
  | notAFolder (path : String)
  | nullInPath
  | notAPath (typeName : String)
  | badJson (source : String) (cause : Json.ReadError)
  | notJsonText (typeName : String)
  | unknownMessage (className : String)
  | queueEmpty
  | circularValue
  | valueTooDeep
  | notData (typeName : String)
  | badFieldName (typeName : String)
  | packedTooDeep
  | packedTooLarge (what : String)
  /-- A text with halves of pairs in it. -/
  | notEncodable (text : Points)
  | unanswered

namespace Fault

def kind : Fault → ErrorKind
  | duplicateName _ => .duplicateModule
  | blankName | reservedName | badPolicy _ | entryLength .. | badInteger _ | integerTooLong _
  | integerTooLongToWrite | nanToInteger | order _ | linkTooShort _ | linkTooLong
  | unknownLevel _ | badModuleKind _ | circularValue | nullInPath | packedTooDeep
  | packedTooLarge _ => .value
  | missingKey _ | missingModule _ => .key
  | unresolvedInput .. => .unresolvedInput
  | infinityToInteger | integerOutOfRange => .overflow
  | noAttribute .. => .noAttribute
  | missingPackage _ | notAPackage .. => .missingPackage
  | startedTwice | notInitialized | unanswered => .run
  | missingFile _ => .fileNotFound
  | isFolder _ => .isADirectory
  | notAFolder _ => .notADirectory
  | badJson _ (.malformed ..) => .jsonDecode
  | badJson _ (.integerTooLong _) => .value
  | badJson _ (.tooDeep _) | valueTooDeep => .recursion
  | queueEmpty => .queueEmpty
  | notEncodable _ => .unicodeEncode
  | notAStore _ | unknownKind _ | versionMismatch | unorderedIds .. | textId | unhashable _
  | notIterable _ | entryNotSequence _ | notText _ | notAString _ | notJoined ..
  | notRepeatable _ | listIndex | noItemAssignment _ | keywordNotText
  | unexpectedArgument .. | repeatedArgument ..
  | missingArguments .. | notMapping .. | notInteger _ | badLevel _ | notJsonText _
  | unknownMessage _ | notAPath _ | notData _ | badFieldName _ => .type

/-- Names as an enumeration with an "and" before the last. -/
def enumeration : List String → String
  | [] => ""
  | [a] => a
  | [a, b] => a ++ " and " ++ b
  | names => ", ".intercalate (names.dropLast) ++ ", and " ++ names.getLast?.getD ""

/-- "1 argument", "2 arguments". -/
def counted (n : Nat) (noun : String) : String :=
  toString n ++ " " ++ noun ++ (if n = 1 then "" else "s")

/-- The complaint of a callee that was given too little. -/
def missingText (callee : String) (names : List String) : String :=
  callee ++ "() missing " ++ counted names.length "required positional argument" ++ ": "
    ++ enumeration (names.map Text.quoted)

def systemText (number : Int) (text path : String) : String :=
  s!"[Errno {number}] " ++ text ++ ": " ++ Text.quoted path

/-- The complaint about the first halves of pairs in a text. -/
def encodingText (text : Points) : String :=
  let (start, count) := text.firstHalves
  let place :=
    if count = 1 then
      let half := (text[start]?.map Fin.val).getD 0
      "character '\\u" ++ String.ofList (Text.hexDigits 4 half) ++ s!"' in position {start}"
    else s!"characters in position {start}-{start + count - 1}"
  "'utf-8' codec can't encode " ++ place ++ ": surrogates not allowed"

/-- The text of an error, as shown to the user. -/
def message : Fault → String
  | duplicateName name => "Module name already in use: " ++ name
  | blankName => "module name must be a non-empty string"
  | reservedName => "'BLOCK' is reserved for the block source"
  | badPolicy policy => "update policy " ++ policy.literal ++ " should be one of set, setOnce"
  | notAStore name => "module " ++ Text.quoted name ++ " is not a store"
  | unknownKind kind => "unknown module kind \"" ++ kind.plain ++ "\""
  | versionMismatch => "Module graph definition mismatch"
  | missingKey key => key.literal
  | missingModule id => Text.quoted ("module " ++ id.literal ++ " does not exist")
  | unresolvedInput module input =>
    "Unknown input " ++ input.literal ++ " for module " ++ Text.quoted module
  | unorderedIds later former =>
    "'>' not supported between instances of " ++ Text.quoted later ++ " and "
      ++ Text.quoted former
  | textId => "can only concatenate str (not \"int\") to str"
  | unhashable t => "unhashable type: " ++ Text.quoted t
  | notIterable t => Text.quoted t ++ " object is not iterable"
  | entryLength index length =>
    s!"dictionary update sequence element #{index} has length {length}; 2 is required"
  | entryNotSequence index =>
    s!"cannot convert dictionary update sequence element #{index} to a sequence"
  | noAttribute t member => Text.quoted t ++ " object has no attribute " ++ Text.quoted member
  | notText t => "expected string or bytes-like object, got " ++ Text.quoted t
  | notAString t => "str expected, not " ++ t
  | notJoined index t => s!"sequence item {index}: expected str instance, {t} found"
  | notRepeatable t => "can't multiply sequence by non-int of type " ++ Text.quoted t
  | listIndex => "list indices must be integers or slices, not str"
  | noItemAssignment t => Text.quoted t ++ " object does not support item assignment"
  | keywordNotText => "keywords must be strings"
  | unexpectedArgument callee name =>
    callee ++ "() got an unexpected keyword argument " ++ name.quoted
  | repeatedArgument callee name =>
    callee ++ "() got multiple values for argument " ++ Text.quoted name
  | missingArguments callee names => missingText callee names
  | notMapping callee t => callee ++ "() argument after ** must be a mapping, not " ++ t
  | badInteger text => "invalid literal for int() with base 10: " ++ Text.quoted text
  | integerTooLong digits => Number.tooLongMessage digits
  | integerTooLongToWrite => Number.tooLongToWriteMessage
  | notInteger t =>
    "int() argument must be a string, a bytes-like object or a real number, not "
      ++ Text.quoted t
  | nanToInteger => "cannot convert float NaN to integer"
  | infinityToInteger => "cannot convert float infinity to integer"
  | integerOutOfRange => "Integer value out of range"
  | order cause => cause.message
  | linkTooShort length => s!"not enough values to unpack (expected 2, got {length})"
  | linkTooLong => "too many values to unpack (expected 2)"
  | unknownLevel name => "Unknown level: " ++ Text.quoted name
  | badLevel value => "Level not an integer or a valid string: " ++ value.plain
  | missingPackage name => "No module named " ++ Text.quoted name
  | notAPackage name parent =>
    "No module named " ++ Text.quoted name ++ "; " ++ Text.quoted parent ++ " is not a package"
  | startedTwice => "threads can only be started once"
  | notInitialized => "call initialize() before using the api"
  | badModuleKind kind => "module kind " ++ kind.literal ++ " should be 'map' or 'store'"
  | missingFile path => systemText 2 "No such file or directory" path
  | notAFolder path => systemText 20 "Not a directory" path
  | isFolder path => systemText 21 "Is a directory" path
  | nullInPath => "embedded null byte"
  | notAPath t => "expected str, bytes or os.PathLike object, not " ++ t
  | badJson source cause => cause.message source
  | notJsonText t => "the JSON object must be str, bytes or bytearray, not " ++ t
  | unknownMessage className => "unknown message \"<class '" ++ className ++ "'>\""
  | queueEmpty => ""
  | circularValue => "Circular reference detected"
  | valueTooDeep => "maximum recursion depth exceeded"
  | notData t => "Object of type " ++ t ++ " is not JSON serializable"
  | badFieldName t => "keys must be str, int, float, bool or None, not " ++ t
  | packedTooDeep => "recursion limit exceeded."
  | packedTooLarge what => what ++ " is too large"
  | notEncodable text => encodingText text
  | unanswered => "the graph owner is not running"

/-- The arguments that an error carries. -/
def arguments : Fault → List (Json Points)
  | duplicateName name => [.str name]
  | missingKey key => [key.spelled]
  | missingModule id => [.str (.ofString ("module " ++ id.literal ++ " does not exist"))]
  | unresolvedInput module input => [.str module, input.spelled]
  | missingFile _ => [.int 2, .str "No such file or directory"]
  | notAFolder _ => [.int 20, .str "Not a directory"]
  | isFolder _ => [.int 21, .str "Is a directory"]
  | queueEmpty => []
  | notEncodable text =>
    let (start, count) := text.firstHalves
    [.str "utf-8", .str text, .int start, .int (start + count), .str "surrogates not allowed"]
  | f => [.str f.message]

/-- An error as a call that would make it. -/
def literal (f : Fault) : String :=
  f.kind.text ++ "(" ++ Json.commaSeparated (f.arguments.map Json.literal) ++ ")"

end Fault

end BlockWorkbench
