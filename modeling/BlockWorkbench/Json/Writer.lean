import BlockWorkbench.Json.Basic
import BlockWorkbench.Number.FloatText
import BlockWorkbench.Text.Hex

/-!
JSON values as text: on one line, or indented with every item on a line of its own.
-/

namespace BlockWorkbench.Json

variable {τ : Type} [Spelled τ]

structure Style where
  /-- The blanks of one level of indentation; without it all stands on one line. -/
  indent : Option (List Char) := none
  /-- Whether characters beyond ASCII are escaped. -/
  ascii : Bool := true
  /-- Whether fields are written in the order of their names. -/
  sortKeys : Bool := false

/-- A UTF-16 unit as an escape. -/
def unitEscape (unit : Nat) : List Char := '\\' :: 'u' :: Text.hexDigits 4 unit

/-- A character as the escapes of its one or two UTF-16 units. -/
def escapeUnits (c : Char) : List Char :=
  let n := c.toNat
  if n < 0x10000 then unitEscape n
  else unitEscape (0xd800 + (n - 0x10000) / 0x400) ++ unitEscape (0xdc00 + (n - 0x10000) % 0x400)

/-- One character of a string. -/
def escapeChar (ascii : Bool) (c : Char) : List Char :=
  if c = '"' then ['\\', '"']
  else if c = '\\' then ['\\', '\\']
  else if c = '\n' then ['\\', 'n']
  else if c = '\r' then ['\\', 'r']
  else if c = '\t' then ['\\', 't']
  else if c = '\x0c' then ['\\', 'f']
  else if c = '\x08' then ['\\', 'b']
  else if c.toNat < 0x20 ∨ (ascii ∧ 0x7f ≤ c.toNat) then escapeUnits c
  else [c]

/-- One code point of a text. A half of a pair has no form but its escape. -/
def escapePoint (ascii : Bool) (p : CodePoint) : List Char :=
  match p.char? with
  | some c => escapeChar ascii c
  | none => unitEscape p.val

def writeString (ascii : Bool) (s : τ) : List Char :=
  '"' :: (Spelled.points s).flatMap (escapePoint ascii) ++ ['"']

/-- Fields in the order of their names. -/
def sortFields (fields : List (τ × Json τ)) : List (τ × Json τ) :=
  fields.mergeSort fun a b => (Spelled.points a.1).atMost (Spelled.points b.1)

/-- What stands between a bracket or comma and the item after it, `level` brackets deep. -/
def Style.lineBreak (style : Style) (level : Nat) : List Char :=
  match style.indent with
  | none => []
  | some blanks => '\n' :: (List.replicate level blanks).flatten

/-- What separates two items. -/
def Style.separator (style : Style) (level : Nat) : List Char :=
  match style.indent with
  | none => [',', ' ']
  | some _ => ',' :: style.lineBreak level

mutual

/-- Fields sorted by name at every depth. -/
def sorted : Json τ → Json τ
  | .list items => .list (sortedItems items)
  | .object fields => .object (sortFields (sortedFields fields))
  | v => v

def sortedItems : List (Json τ) → List (Json τ)
  | [] => []
  | v :: rest => sorted v :: sortedItems rest

def sortedFields : List (τ × Json τ) → List (τ × Json τ)
  | [] => []
  | (n, v) :: rest => (n, sorted v) :: sortedFields rest

end

mutual

/-- The text of a value inside `level` brackets. -/
def write (style : Style) (level : Nat) : Json τ → List Char
  | .null => "null".toList
  | .bool true => "true".toList
  | .bool false => "false".toList
  | .int n => (toString n).toList
  | .float x => (Number.jsonFloats.render x).toList
  | .str s => writeString style.ascii s
  | .list [] => ['[', ']']
  | .list (v :: rest) =>
    '[' :: style.lineBreak (level + 1) ++ write style (level + 1) v
      ++ writeItems style (level + 1) rest ++ style.lineBreak level ++ [']']
  | .object [] => ['\x7b', '\x7d']
  | .object ((n, v) :: rest) =>
    '\x7b' :: style.lineBreak (level + 1) ++ writeString style.ascii n ++ [':', ' ']
      ++ write style (level + 1) v ++ writeFields style (level + 1) rest
      ++ style.lineBreak level ++ ['\x7d']

/-- The items after the first, each behind its separator. -/
def writeItems (style : Style) (level : Nat) : List (Json τ) → List Char
  | [] => []
  | v :: rest => style.separator level ++ write style level v ++ writeItems style level rest

/-- The fields after the first, each behind its separator. -/
def writeFields (style : Style) (level : Nat) : List (τ × Json τ) → List Char
  | [] => []
  | (n, v) :: rest =>
    style.separator level ++ writeString style.ascii n ++ [':', ' '] ++ write style level v
      ++ writeFields style level rest

end

def render (style : Style) (v : Json τ) : String :=
  String.ofList (write style 0 (if style.sortKeys then v.sorted else v))

/-- The text of a value on one line. -/
def text (v : Json τ) : String := v.render {}

/-- The text of a string between double quotes, all ASCII. -/
def stringText (s : String) : String := String.ofList (writeString true s)

end BlockWorkbench.Json
