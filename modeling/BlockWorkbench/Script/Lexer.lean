import BlockWorkbench.Script.Numeral
import BlockWorkbench.Script.Quotation
import BlockWorkbench.Text.Identifier

/-!
Scripts cut into tokens. The text is read one character at a time by a scanner whose mode says
what the character belongs to, so the lines of a text followed by another are those of the first
followed by those that the scanner finds in the second.
-/

namespace BlockWorkbench.Script

inductive Mode where
  /-- At the start of a line, behind so many columns and blanks. -/
  | lineStart (column blanks : Nat)
  | between
  | comment
  /-- Behind a backslash. -/
  | continued
  -- inside a token, whose characters are kept last first
  | word (cs : List Char)
  | number (cs : List Char)
  | operator (cs : List Char)
  /-- Behind a quote, which may be the first of three. -/
  | opened (quote : Char) (raw : Bool)
  | openedTwice (quote : Char) (raw : Bool)
  | short (quote : Char) (raw : Bool) (cs : List Char) (escaped : Bool)
  /-- Between triple quotes, behind `closing` of them. -/
  | long (quote : Char) (raw : Bool) (cs : List Char) (escaped : Bool) (closing : Nat)
  /-- The text cannot be cut further. -/
  | broken
  deriving Repr

structure Scanner where
  mode : Mode := .lineStart 0 0
  /-- The brackets that are open, the innermost first. -/
  brackets : List Char := []
  /-- The indentation of the current line. -/
  column : Nat := 0
  blanks : Nat := 0
  /-- The row of the text that is being read. -/
  row : Nat := 1
  /-- The tokens of the current line, last first. -/
  tokens : List Placed := []
  /-- The lines before it, last first. -/
  lines : List Line := []
  deriving Repr

namespace Scanner

/-- Brackets nested more deeply than this are refused. -/
def bracketLimit : Nat := 200

def breakOff (s : Scanner) : Scanner := { s with mode := .broken }

/-- Adds tokens, first to last, and goes on between tokens. -/
def emit (s : Scanner) (ts : List Token) : Scanner :=
  { s with mode := .between, tokens := ts.reverse.map (⟨·, s.row⟩) ++ s.tokens }

def currentLine (s : Scanner) : Line := ⟨s.column, s.blanks, s.tokens.reverse⟩

/-- A line end outside brackets ends the logical line; one without tokens is none. -/
def endLine (s : Scanner) : Scanner :=
  if !s.brackets.isEmpty then { s with mode := .between }
  else if s.tokens.isEmpty then { s with mode := .lineStart 0 0 }
  else { s with mode := .lineStart 0 0, tokens := [], lines := s.currentLine :: s.lines }

def isWide (c : Char) : Bool := 0x80 ≤ c.toNat

def isQuote (c : Char) : Bool := c == '"' || c == '\''

/-- The operators that start with the given characters. -/
def startsOperator (cs : List Char) : Bool :=
  cs = ['!'] || operators.contains (String.ofList cs)

/-- A character with which something new starts. -/
def begin (s : Scanner) (c : Char) : Scanner :=
  if c == ' ' || c == '\t' || c == '\x0c' then { s with mode := .between }
  else if c == '\n' then s.endLine
  else if c == '#' then { s with mode := .comment }
  else if c == '\\' then { s with mode := .continued }
  else if Number.isDigit c then { s with mode := .number [c] }
  else if isQuote c then { s with mode := .opened c false }
  else if Text.isNameStart c || isWide c then { s with mode := .word [c] }
  else if startsOperator [c] then { s with mode := .operator [c] }
  else s.breakOff

/-- Closes a word. -/
def endWord (s : Scanner) (cs : List Char) : Scanner :=
  let word := cs.reverse
  if Text.isName word then s.emit [Token.ofWord (String.ofList word)] else s.breakOff

def endNumber (s : Scanner) (cs : List Char) : Scanner :=
  match numeralTokens? cs.reverse with
  | some ts => s.emit ts
  | none => s.breakOff

/-- The bracket that a closing bracket closes. -/
def opening? : String → Option Char
  | ")" => some '('
  | "]" => some '['
  | "\x7d" => some '\x7b'
  | _ => none

def endOperator (s : Scanner) (cs : List Char) : Scanner :=
  let text := String.ofList cs.reverse
  match cs with
  | [c] =>
    if c == '(' || c == '[' || c == '\x7b' then
      if bracketLimit ≤ s.brackets.length then s.breakOff
      else { s.emit [.op text] with brackets := c :: s.brackets }
    else
      match opening? text with
      | none => if c == '!' then s.breakOff else s.emit [.op text]
      | some o =>
        match s.brackets with
        | b :: rest => if b = o then { s.emit [.op text] with brackets := rest } else s.breakOff
        | [] => s.breakOff
  | _ => s.emit [.op text]

def endString (s : Scanner) (raw : Bool) (cs : List Char) : Scanner :=
  match unquote? raw cs.reverse with
  | some text => s.emit [.str text]
  | none => s.breakOff

/-- Whether a number goes on with `c`. -/
def extendsNumber (cs : List Char) (c : Char) : Bool :=
  if c.isAlphanum || c == '_' then true
  else if c == '.' then cs.all fun d => Number.isDigit d || d == '_'
  else if c == '+' || c == '-' then
    (cs.head? == some 'e' || cs.head? == some 'E')
      && cs.all fun d => Number.isDigit d || d == '_' || d == '.' || d == 'e' || d == 'E'
  else false

/-- Whether a word in front of a quote belongs to the string: a mark for raw text, or one that
means nothing. -/
def stringMark? : List Char → Option Bool
  | ['r'] | ['R'] => some true
  | ['u'] | ['U'] => some false
  | _ => none

def inShort (s : Scanner) (quote : Char) (raw : Bool) (cs : List Char) (escaped : Bool)
    (c : Char) : Scanner :=
  if escaped then { s with mode := .short quote raw (c :: cs) false }
  else if c == '\\' then { s with mode := .short quote raw (c :: cs) true }
  else if c == quote then s.endString raw cs
  else if c == '\n' then s.breakOff
  else { s with mode := .short quote raw (c :: cs) false }

def inLong (s : Scanner) (quote : Char) (raw : Bool) (cs : List Char) (escaped : Bool)
    (closing : Nat) (c : Char) : Scanner :=
  if escaped then { s with mode := .long quote raw (c :: cs) false 0 }
  else if c == '\\' then { s with mode := .long quote raw (c :: cs) true 0 }
  else if c == quote then
    if closing = 2 then s.endString raw (cs.drop 2)
    else { s with mode := .long quote raw (c :: cs) false (closing + 1) }
  else { s with mode := .long quote raw (c :: cs) false 0 }

/-- The character behind a finished token. -/
def resume (s : Scanner) (c : Char) : Scanner :=
  match s.mode with
  | .broken => s
  | _ => s.begin c

/-- What a character means behind those before it. -/
def take (s : Scanner) (c : Char) : Scanner :=
  match s.mode with
  | .lineStart column blanks =>
    if c == ' ' then { s with mode := .lineStart (column + 1) (blanks + 1) }
    else if c == '\t' then { s with mode := .lineStart ((column / 8 + 1) * 8) (blanks + 1) }
    else if c == '\x0c' then { s with mode := .lineStart 0 0 }
    else if c == '\n' then { s with mode := .lineStart 0 0 }
    else { s with column, blanks }.begin c
  | .between => s.begin c
  | .comment => if c == '\n' then s.endLine else s
  | .continued => if c == '\n' then { s with mode := .between } else s.breakOff
  | .word cs =>
    if Text.isNameFollow c || isWide c then { s with mode := .word (c :: cs) }
    else if isQuote c then
      match stringMark? cs with
      | some raw => { s with mode := .opened c raw }
      | none => (s.endWord cs).resume c
    else (s.endWord cs).resume c
  | .number cs =>
    if extendsNumber cs c then { s with mode := .number (c :: cs) }
    else if isWide c then s.breakOff
    else (s.endNumber cs).resume c
  | .operator cs =>
    if cs = ['.'] && Number.isDigit c then { s with mode := .number [c, '.'] }
    else if startsOperator (cs.reverse ++ [c]) then { s with mode := .operator (c :: cs) }
    else (s.endOperator cs).resume c
  | .opened quote raw =>
    if c == quote then { s with mode := .openedTwice quote raw }
    else s.inShort quote raw [] false c
  | .openedTwice quote raw =>
    if c == quote then { s with mode := .long quote raw [] false 0 }
    else (s.emit [.str []]).begin c
  | .short quote raw cs escaped => s.inShort quote raw cs escaped c
  | .long quote raw cs escaped closing => s.inLong quote raw cs escaped closing c
  | .broken => s

/-- One character. -/
def step (s : Scanner) (c : Char) : Scanner :=
  let next := s.take c
  if c = '\n' then { next with row := s.row + 1 } else next

/-- What a scanner has made of a whole text: its lines, and whether the last of them is one that
broke off. -/
def finish (s : Scanner) : List Line × Bool :=
  match s.mode with
  | .lineStart _ _ => if s.brackets.isEmpty && s.tokens.isEmpty then (s.lines.reverse, false)
    else ((s.currentLine :: s.lines).reverse, true)
  | _ => ((s.currentLine :: s.lines).reverse, true)

end Scanner

/-- Line ends as line feeds. -/
def plainLineEnds : List Char → List Char
  | [] => []
  | '\r' :: '\n' :: rest => '\n' :: plainLineEnds rest
  | '\r' :: rest => '\n' :: plainLineEnds rest
  | c :: rest => c :: plainLineEnds rest

/-- The text with a line feed behind its last line. -/
def closeLastLine (cs : List Char) : List Char :=
  if cs.isEmpty || cs.getLast? = some '\n' then cs else cs ++ ['\n']

/-- The lines of a script. -/
def scanLines (cs : List Char) : List Line × Bool :=
  ((closeLastLine (plainLineEnds cs)).foldl Scanner.step {}).finish

/-- A block that is open: the column and blanks of its lines. -/
abbrev Depth := Nat × Nat

/-- Blocks nested more deeply than this are refused. -/
def blockLimit : Nat := 100

/-- The open blocks that a line at `column` leaves open, and one closing token for each other. -/
def closeBlocks (column : Nat) : List Depth → List Token × List Depth
  | [] => ([], [])
  | (c, b) :: rest =>
    if column < c then
      let (ts, open_) := closeBlocks column rest
      (.dedent :: ts, open_)
    else ([], (c, b) :: rest)

/-- The tokens at the start of a line, by its indentation and the open blocks; the latter end
with the text itself, at column zero. -/
def indentation (line : Line) (blocks : List Depth) :
    List Token × Except SyntaxFault (List Depth) :=
  match blocks with
  | [] => ([], .ok [])
  | (c, b) :: _ =>
    if line.column = c then
      if line.blanks = b then ([], .ok blocks) else ([], .error .tabs)
    else if c < line.column then
      if line.blanks ≤ b then ([], .error .tabs)
      else if blockLimit ≤ blocks.length then ([], .error .tooManyBlocks)
      else ([.indent], .ok ((line.column, line.blanks) :: blocks))
    else
      let (ts, left) := closeBlocks line.column blocks
      match left with
      | (c, b) :: _ =>
        if line.column ≠ c then ([], .error .unmatchedDedent)
        else if line.blanks ≠ b then ([], .error .tabs)
        else (ts, .ok left)
      | [] => ([], .error .unmatchedDedent)

/-- The tokens of lines, with the openings and closings of blocks between them. The lines before
end in `row`. -/
def arrange (broken : Bool) (blocks : List Depth) (row : Nat) : List Line → List Placed
  | [] => List.replicate (blocks.length - 1) ⟨.dedent, row + 1⟩
  | line :: rest =>
    match indentation line blocks with
    | (ts, .error f) => (ts ++ [Token.fault f]).map (⟨·, line.row⟩)
    | (ts, .ok blocks) =>
      ts.map (⟨·, line.row⟩) ++ line.tokens ++
        if broken && rest.isEmpty then [⟨.fault .malformed, line.lastRow⟩]
        else ⟨.newline, line.lastRow⟩ :: arrange broken blocks line.lastRow rest

/-- The tokens of a script. -/
def tokenize (source : String) : List Placed :=
  let (lines, broken) := scanLines source.toList
  arrange broken [(0, 0)] 0 lines

end BlockWorkbench.Script
