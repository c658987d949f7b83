import BlockWorkbench.Text.Points

/-!
The tokens of scripts. Indentation is part of the token sequence: where a block opens or closes
there is a token for it.
-/

namespace BlockWorkbench.Script

/-- Why a text is not a script. -/
inductive SyntaxFault where
  | malformed
  /-- A block is indented where none may start. -/
  | unexpectedIndent
  /-- A line is not indented where a block must start. -/
  | missingBlock
  /-- A block is closed to a column that no open block has. -/
  | unmatchedDedent
  | tooManyBlocks
  /-- Tabs and spaces are mixed so that the depth of a line depends on the width of a tab. -/
  | tabs
  /-- The text holds a null character. -/
  | nullCharacter
  deriving DecidableEq, Repr

inductive Token where
  | name (s : String)
  | keyword (s : String)
  | int (n : Nat)
  | float (x : Float)
  | str (s : Points)
  | op (s : String)
  | newline
  | indent
  | dedent
  /-- The place where the text stops being made of tokens. -/
  | fault (f : SyntaxFault)
  deriving Repr

def keywords : List String := [
  "False", "None", "True", "and", "as", "assert", "async", "await", "break", "class", "continue",
  "def", "del", "elif", "else", "except", "finally", "for", "from", "global", "if", "import",
  "in", "is", "lambda", "nonlocal", "not", "or", "pass", "raise", "return", "try", "while",
  "with", "yield"]

/-- A token, and the row of the text it stands in, counted from one. -/
structure Placed where
  token : Token
  row : Nat
  deriving Repr

/-- A word as a keyword or a name. -/
def Token.ofWord (s : String) : Token := if keywords.contains s then .keyword s else .name s

/-- Operators and delimiters. -/
def operators : List String := [
  "+", "-", "*", "/", "%", "@", "&", "|", "^", "~", "<", ">", "=", "(", ")", "[", "]", "\x7b",
  "\x7d", ":", ",", ";", ".", "**", "//", "==", "!=", "<=", ">=", "+=", "-=", "*=", "/=", "%=",
  "@=", "&=", "|=", "^=", "->", ":=", "<<", ">>", "**=", "//=", "<<=", ">>="]

/-- A logical line: its column with tabs to multiples of eight, its column with tabs as single
blanks, and its tokens. -/
structure Line where
  column : Nat
  blanks : Nat
  tokens : List Placed
  deriving Repr

/-- The row in which a line starts. -/
def Line.row (l : Line) : Nat := (l.tokens.head?.map (·.row)).getD 1

/-- The row in which a line ends. -/
def Line.lastRow (l : Line) : Nat := (l.tokens.getLast?.map (·.row)).getD 1

end BlockWorkbench.Script
