/-!
The handler of a module inside its code: a function definition at the start of a line. Renaming
the module renames every such definition and leaves all else as it is.
-/

namespace BlockWorkbench.Handler

def isGap (c : Char) : Bool := c == ' ' || c == '\t'

/-- Gaps, if any, and then an opening bracket. -/
def opens (cs : List Char) : Bool := (cs.dropWhile isGap).head? == some '('

/-- The keyword that starts a definition, and what follows it. -/
def afterKeyword? (cs : List Char) : Option (List Char) :=
  if "async".toList.isPrefixOf cs then
    let rest := cs.drop 5
    let gap := rest.takeWhile isGap
    let after := rest.drop gap.length
    if !gap.isEmpty && "def".toList.isPrefixOf after then some (after.drop 3) else none
  else if "def".toList.isPrefixOf cs then some (cs.drop 3)
  else none

/-- How many of the gaps at the start of `cs` stand before the name. The name may itself start
with gaps; as many as possible are taken for separators, one at least. -/
def separators? (name cs : List Char) : Option Nat :=
  let gaps := (cs.takeWhile isGap).length
  ((List.range gaps).map fun i => gaps - i).find? fun n =>
    name.isPrefixOf (cs.drop n) && opens (cs.drop (n + name.length))

/-- If a definition of `name` starts here, the number of characters before the name, less
one. -/
def lead? (name cs : List Char) : Option Nat :=
  match afterKeyword? cs with
  | none => none
  | some rest => (separators? name rest).map fun n => cs.length - rest.length + n - 1

/-- The text with the definitions of `old` renamed, where `lineStart` says whether it starts a
line. -/
def renameFrom (old new : List Char) (lineStart : Bool) : List Char → List Char
  | [] => []
  | c :: rest =>
    match if lineStart then lead? old (c :: rest) else none with
    | some n =>
      (c :: rest.take n) ++ new ++ renameFrom old new false ((rest.drop n).drop old.length)
    | none => c :: renameFrom old new (c == '\n') rest
termination_by cs => cs.length
decreasing_by all_goals simp only [List.length_cons, List.length_drop]; omega

def rename (code old new : String) : String :=
  String.ofList (renameFrom old.toList new.toList true code.toList)

end BlockWorkbench.Handler
