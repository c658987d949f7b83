import BlockWorkbench.Url.Escape

/-!
The query of a URL: names and values, escaped, with plus signs for blanks.
-/

namespace BlockWorkbench.Url

/-- The character that the bytes stand for, if they stand for just one. -/
def charOfBytes? (bytes : List UInt8) : Option Char :=
  match (String.fromUTF8? ⟨bytes.toArray⟩).map String.toList with
  | some [c] => some c
  | _ => none

/-- The character that the bytes start with, and how many of them it takes. -/
def leadingChar? (bytes : List UInt8) : Option (Char × Nat) :=
  [1, 2, 3, 4].findSome? fun size => (charOfBytes? (bytes.take size)).map (·, size)

/-- The text of bytes; those that are no part of a character stay escapes. -/
def decodeBytes : List UInt8 → List Char
  | [] => []
  | b :: rest =>
    match leadingChar? (b :: rest) with
    | some (c, size) => c :: decodeBytes (rest.drop (size - 1))
    | none => escapeByte b ++ decodeBytes rest
termination_by bytes => bytes.length
decreasing_by all_goals simp only [List.length_cons, List.length_drop]; omega

/-- A name or a value in a query. -/
def decodeField (cs : List Char) : String :=
  String.ofList (decodeBytes (unescape (cs.map fun c => if c = '+' then ' ' else c)))

/-- One pair of a query; without an equals sign the value is empty. -/
def readPair (cs : List Char) : String × String :=
  (decodeField (cs.takeWhile (· != '=')), decodeField ((cs.dropWhile (· != '=')).drop 1))

/-- The pairs of a query, which ampersands part. -/
def readQuery (s : String) : List (String × String) :=
  ((s.splitOn "&").filter (· != "")).map fun pair => readPair pair.toList

end BlockWorkbench.Url
