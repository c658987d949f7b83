import BlockWorkbench.Json.Basic
import BlockWorkbench.Number.Numeral
import BlockWorkbench.Text.Points

/-!
JSON values read from text. A fault is placed where the reader stood when it gave up, counted in
characters. Not-a-number and the infinities may be written by name.
-/

namespace BlockWorkbench.Json

variable {τ : Type}

inductive ReadCause where
  | expectingValue
  | expectingName
  | expectingColon
  | expectingComma
  | extraData
  | unterminatedString
  | controlCharacter
  | badEscape
  | badUnicodeEscape
  | byteOrderMark
  deriving DecidableEq, Repr

def ReadCause.message : ReadCause → String
  | .expectingValue => "Expecting value"
  | .expectingName => "Expecting property name enclosed in double quotes"
  | .expectingColon => "Expecting ':' delimiter"
  | .expectingComma => "Expecting ',' delimiter"
  | .extraData => "Extra data"
  | .unterminatedString => "Unterminated string starting at"
  | .controlCharacter => "Invalid control character at"
  | .badEscape => "Invalid \\escape"
  | .badUnicodeEscape => "Invalid \\uXXXX escape"
  | .byteOrderMark => "Unexpected UTF-8 BOM (decode using utf-8-sig)"

inductive ReadError where
  /-- The text is not JSON; the fault lies `left` characters before the end. -/
  | malformed (cause : ReadCause) (left : Nat)
  | integerTooLong (digits : Nat)
  /-- Too many brackets are nested; the innermost opens an object or a list. -/
  | tooDeep (isObject : Bool)
  deriving DecidableEq, Repr

/-- The blanks between tokens: space, tab and the two ASCII line ends. -/
def isSpace (c : Char) : Bool := c == ' ' || c == '\t' || c == '\n' || c == '\r'

def skipSpace (cs : List Char) : List Char := cs.dropWhile isSpace

/-- The character that follows a backslash, decoded. -/
def plainEscape? : Char → Option Char
  | '"' => some '"'
  | '\\' => some '\\'
  | '/' => some '/'
  | 'b' => some '\x08'
  | 'f' => some '\x0c'
  | 'n' => some '\n'
  | 'r' => some '\r'
  | 't' => some '\t'
  | _ => none

/-- The code points of a string up to its closing quote, and what follows the quote. The opening
quote stood `start` characters before the end of the text. -/
def readPoints (start : Nat) : List Char → Except ReadError (List Nat × List Char)
  | [] => .error (.malformed .unterminatedString start)
  | '"' :: rest => .ok ([], rest)
  | ['\\'] => .error (.malformed .unterminatedString start)
  | '\\' :: 'u' :: rest =>
    match rest with
    | a :: b :: c :: d :: e :: more =>
      match Text.hexNumber? [a, b, c, d] with
      | some n => (readPoints start (e :: more)).map fun (ns, after) => (n :: ns, after)
      | none => .error (.malformed .badUnicodeEscape (more.length + 6))
    | _ => .error (.malformed .badUnicodeEscape (rest.length + 1))
  | '\\' :: c :: rest =>
    match plainEscape? c with
    | some d => (readPoints start rest).map fun (ns, after) => (d.toNat :: ns, after)
    | none => .error (.malformed .badEscape (rest.length + 2))
  | c :: rest =>
    if c.toNat < 0x20 then .error (.malformed .controlCharacter (rest.length + 1))
    else (readPoints start rest).map fun (ns, after) => (c.toNat :: ns, after)

/-- A string whose opening quote has just been passed. -/
def readString [Spelled τ] (rest : List Char) : Except ReadError (τ × List Char) :=
  (readPoints (rest.length + 1) rest).map fun (ns, more) => (Spelled.ofUnits ns, more)

/-- The digits before the point: a zero alone, or digits that start with another. -/
def wholeDigits : List Char → List Char
  | '0' :: _ => ['0']
  | cs => cs.takeWhile Number.isDigit

/-- The digits of a fraction, with its point in front, if a digit follows the point. -/
def fractionDigits : List Char → List Char
  | '.' :: rest => rest.takeWhile Number.isDigit
  | _ => []

/-- Sign and digits of an exponent, and the number of characters it takes, if it has digits. -/
def exponentPart? : List Char → Option (Bool × List Char × Nat)
  | c :: rest =>
    if c == 'e' || c == 'E' then
      let (negative, body) := Number.splitSign rest
      let digits := body.takeWhile Number.isDigit
      if digits.isEmpty then none
      else some (negative, digits, 1 + (rest.length - body.length) + digits.length)
    else none
  | [] => none

/-- A number. Without fraction and exponent it is an integer. -/
def readNumber (cs : List Char) : Except ReadError (Json τ × List Char) :=
  let (negative, body) : Bool × List Char := match cs with
    | '-' :: rest => (true, rest)
    | _ => (false, cs)
  let whole := wholeDigits body
  if whole.isEmpty then .error (.malformed .expectingValue cs.length)
  else
    let afterWhole := body.drop whole.length
    let fraction := fractionDigits afterWhole
    let afterFraction :=
      if fraction.isEmpty then afterWhole else afterWhole.drop (fraction.length + 1)
    match exponentPart? afterFraction with
    | some (negativeExponent, digits, size) =>
      let size' : Int := Number.digitsValue digits
      let exponent := if negativeExponent then -size' else size'
      .ok (.float (Number.assemble negative whole fraction exponent), afterFraction.drop size)
    | none =>
      if !fraction.isEmpty then
        .ok (.float (Number.assemble negative whole fraction 0), afterFraction)
      else if Number.digitLimit < whole.length then .error (.integerTooLong whole.length)
      else
        let n : Int := Number.digitsValue whole
        .ok (.int (if negative then -n else n), afterFraction)

/-- Brackets nested more deeply than this are not read. -/
def depthLimit : Nat := 980

/-- The words that stand for values, the longest of a common beginning first. -/
def words : List (List Char × Json τ) := [
  ("null".toList, .null), ("true".toList, .bool true), ("false".toList, .bool false),
  ("NaN".toList, .float Number.notANumber), ("Infinity".toList, .float Number.infinity),
  ("-Infinity".toList, .float (-Number.infinity))]

/-- A value written as a word. -/
def readWord? (cs : List Char) : Option (Json τ × List Char) :=
  words.findSome? fun (w, v) => if w.isPrefixOf cs then some (v, cs.drop w.length) else none

variable [Spelled τ] [DecidableEq τ]

mutual

/-- One value, with `depth` further brackets allowed around what it holds. -/
def readValue : Nat → Nat → List Char → Except ReadError (Json τ × List Char)
  | 0, _, _ => .error (.tooDeep false)
  | fuel + 1, depth, cs =>
    match cs with
    | '"' :: rest => (readString rest).map fun (s, more) => (.str s, more)
    | '[' :: rest =>
      if depth = 0 then .error (.tooDeep false)
      else
        match skipSpace rest with
        | ']' :: more => .ok (.list [], more)
        | more => (readItems fuel (depth - 1) more).map fun (vs, after) => (.list vs, after)
    | '\x7b' :: rest =>
      if depth = 0 then .error (.tooDeep true)
      else
        match skipSpace rest with
        | '\x7d' :: more => .ok (.object [], more)
        | more =>
          (readFields fuel (depth - 1) [] more).map fun (fs, after) => (.object fs, after)
    | _ =>
      match readWord? cs with
      | some r => .ok r
      | none => readNumber cs

/-- The items of a list up to its closing bracket. -/
def readItems : Nat → Nat → List Char → Except ReadError (List (Json τ) × List Char)
  | 0, _, _ => .error (.tooDeep false)
  | fuel + 1, depth, cs => do
    let (v, rest) ← readValue fuel depth cs
    match skipSpace rest with
    | ']' :: more => .ok ([v], more)
    | ',' :: more =>
      let (vs, after) ← readItems fuel depth (skipSpace more)
      .ok (v :: vs, after)
    | more => .error (.malformed .expectingComma more.length)

/-- The fields of an object up to its closing bracket, added to those already read. -/
def readFields : Nat → Nat → List (τ × Json τ) → List Char →
    Except ReadError (List (τ × Json τ) × List Char)
  | 0, _, _, _ => .error (.tooDeep true)
  | fuel + 1, depth, fields, cs =>
    match cs with
    | '"' :: rest => do
      let (name, afterName) ← readString rest
      match skipSpace afterName with
      | ':' :: more =>
        let (v, afterValue) ← readValue fuel depth (skipSpace more)
        let fields := setField fields name v
        match skipSpace afterValue with
        | '\x7d' :: more => .ok (fields, more)
        | ',' :: more => readFields fuel depth fields (skipSpace more)
        | more => .error (.malformed .expectingComma more.length)
      | more => .error (.malformed .expectingColon more.length)
    | _ => .error (.malformed .expectingName cs.length)

end

/-- The one value that a text holds. -/
def readAll (cs : List Char) : Except ReadError (Json τ) :=
  if cs.head? = some '\ufeff' then .error (.malformed .byteOrderMark cs.length)
  else do
    let (v, rest) ← readValue (2 * cs.length + 2) depthLimit (skipSpace cs)
    match skipSpace rest with
    | [] => .ok v
    | more => .error (.malformed .extraData more.length)

def read (s : String) : Except ReadError (Json τ) := readAll s.toList

/-- Line, column and offset of the character `left` characters before the end. -/
def placeOf (cs : List Char) (left : Nat) : Nat × Nat × Nat :=
  let before := cs.take (cs.length - left)
  let line := before.count '\n' + 1
  let column := (before.reverse.takeWhile (· != '\n')).length + 1
  (line, column, before.length)

/-- The text of a read error of `source`. -/
def ReadError.message (source : String) : ReadError → String
  | .malformed cause left =>
    let (line, column, offset) := placeOf source.toList left
    cause.message ++ s!": line {line} column {column} (char {offset})"
  | .integerTooLong digits =>
    Number.tooLongMessage digits
  | .tooDeep isObject =>
    "maximum recursion depth exceeded while decoding a JSON "
      ++ (if isObject then "object" else "array") ++ " from a unicode string"

end BlockWorkbench.Json
