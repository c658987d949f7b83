import BlockWorkbench.Json.Scalar
import BlockWorkbench.Fault

/-!
JSON values taken as something else: as a sequence, as a key, as named entries, as an integer.
-/

namespace BlockWorkbench.Json

/-- The characters of a string as strings. -/
def characters (s : String) : List Json := s.toList.map fun c => .str (String.ofList [c])

/-- The values that a value runs through: the items of a list, the characters of a string, the
names of an object. -/
def elements : Json → Except Fault (List Json)
  | .list items => .ok items
  | .str s => .ok (characters s)
  | .object fields => .ok (fields.map fun f => .str f.1)
  | v => .error (.notIterable v.typeName)

def asKey (v : Json) : Except Fault Scalar :=
  match Scalar.ofJson? v with
  | some key => .ok key
  | none => .error (.unhashable v.typeName)

/-- Sets an entry: in place if the key is present, at the end if not. -/
def setEntry {α : Type} : List (Scalar × α) → Scalar → α → List (Scalar × α)
  | [], key, value => [(key, value)]
  | (k, v) :: rest, key, value =>
    if k.same key then (k, value) :: rest else (k, v) :: setEntry rest key value

/-- An entry written as a sequence of two. -/
def asPair (index : Nat) (v : Json) : Except Fault (Json × Json) :=
  match v.elements with
  | .ok [a, b] => .ok (a, b)
  | .ok items => .error (.entryLength index items.length)
  | .error _ => .error (.entryNotSequence index)

/-- Entries written as pairs, added to those already read. -/
def pairEntries (index : Nat) (entries : List (Scalar × Json)) :
    List Json → Except Fault (List (Scalar × Json))
  | [] => .ok entries
  | v :: rest => do
    let (a, b) ← asPair index v
    let key ← asKey a
    pairEntries (index + 1) (setEntry entries key b) rest

/-- The entries of an object, or of a sequence of pairs. -/
def asEntries : Json → Except Fault (List (Scalar × Json))
  | .object fields => .ok (fields.map fun (n, v) => (.str n, v))
  | v => do pairEntries 0 [] (← v.elements)

/-- The entry at a name, and the other entries. -/
def popEntry (entries : List (Scalar × Json)) (name : String) :
    Option Json × List (Scalar × Json) :=
  ((entries.find? fun e => e.1.same (.str name)).map (·.2),
    entries.filter fun e => !e.1.same (.str name))

/-- Entries as named arguments. -/
def asKeywords : List (Scalar × Json) → Except Fault (List (String × Json))
  | [] => .ok []
  | (.str n, v) :: rest => do return (n, v) :: (← asKeywords rest)
  | _ => .error .keywordNotText

def floatToInt (x : Float) : Except Fault Int :=
  match Number.classify x with
  | .nan => .error .nanToInteger
  | .infinite _ => .error .infinityToInteger
  | .finite b => .ok b.truncate

/-- A number or the text of an integer, as an integer. -/
def toInt : Json → Except Fault Int
  | .int n => .ok n
  | .bool b => .ok (if b then 1 else 0)
  | .float x => floatToInt x
  | .str s =>
    match Number.readInt s with
    | .value n => .ok n
    | .malformed => .error (.badInteger s)
    | .tooLong digits => .error (.integerTooLong digits)
  | v => .error (.notInteger v.typeName)

/-- The value that a text of JSON stands for. -/
def readText : Json → Except Fault (Json Points)
  | .str text =>
    match read text with
    | .ok v => .ok v
    | .error cause => .error (.badJson text cause)
  | v => .error (.notJsonText v.typeName)

end BlockWorkbench.Json
