import BlockWorkbench.Fault

/-!
The files of a session: which folders there are, and the texts written so far. A path names a
file by the text behind its last slash.
-/

namespace BlockWorkbench

structure Files where
  /-- The folders that exist, without a slash at the end. -/
  folders : List String := []
  texts : List (String × String) := []
  deriving Repr

namespace Files

/-- The folder that a path is in. -/
def folderOf (path : String) : String :=
  let behind := path.toList.reverse.takeWhile (· != '/')
  String.ofList (path.toList.take (path.toList.length - behind.length - 1))

def text? (f : Files) (path : String) : Option String :=
  (f.texts.find? (·.1 == path)).map (·.2)

/-- Writes a text, in place of an earlier one. The folder has to exist. -/
def write (f : Files) (path text : String) : Except Fault Files :=
  if path.toList.contains '\x00' then .error .nullInPath
  else if path = "" then .error (.missingFile path)
  else if f.folders.contains path then .error (.isFolder path)
  else if f.folders.contains (folderOf path) then
    if path.endsWith "/" then .error (.isFolder path)
    else .ok { f with texts := (path, text) :: f.texts.filter (·.1 != path) }
  else if (f.text? (folderOf path)).isSome then .error (.notAFolder path)
  else .error (.missingFile path)

/-- A text with every line end written as a line feed. -/
def unifyLineEnds : List Char → List Char
  | [] => []
  | '\r' :: '\n' :: rest => '\n' :: unifyLineEnds rest
  | '\r' :: rest => '\n' :: unifyLineEnds rest
  | c :: rest => c :: unifyLineEnds rest

/-- Reads a text back. Lines end with a line feed, whatever ended them in the file. -/
def read (f : Files) (path : String) : Except Fault String :=
  if path.toList.contains '\x00' then .error .nullInPath
  else if path != "" && f.folders.contains path then .error (.isFolder path)
  else
    match f.text? path with
    | some text => .ok (String.ofList (unifyLineEnds text.toList))
    | none => .error (.missingFile path)

end Files

end BlockWorkbench
