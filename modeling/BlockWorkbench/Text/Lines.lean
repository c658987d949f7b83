/-!
Lines of a text. Besides the line feed, the carriage return and the pair of both, a line ends at
the vertical tab, the form feed, the information separators, the next line control and the two
Unicode separators.
-/

namespace BlockWorkbench.Text

def isLineEnd (c : Char) : Bool :=
  let n := c.toNat
  (0x0a ≤ n && n ≤ 0x0d) || (0x1c ≤ n && n ≤ 0x1e) || n == 0x85 || n == 0x2028 || n == 0x2029

/-- The lines of a text without their ends, where `current` holds the characters of the current
line, last first. An unfinished last line counts if it holds a character. -/
def linesFrom (current : List Char) : List Char → List (List Char)
  | [] => if current.isEmpty then [] else [current.reverse]
  | '\r' :: '\n' :: rest => current.reverse :: linesFrom [] rest
  | c :: rest =>
    if isLineEnd c then current.reverse :: linesFrom [] rest else linesFrom (c :: current) rest

def lines (s : String) : List String := (linesFrom [] s.toList).map String.ofList

/-- The finished lines of a text: what a reader has passed on when the text breaks off. A
carriage return at the very end may yet belong to a pair, so it finishes no line. -/
def finishedLinesFrom (current : List Char) : List Char → List (List Char)
  | [] => []
  | ['\r'] => []
  | '\r' :: '\n' :: rest => current.reverse :: finishedLinesFrom [] rest
  | c :: rest =>
    if isLineEnd c then current.reverse :: finishedLinesFrom [] rest
    else finishedLinesFrom (c :: current) rest

def finishedLines (s : String) : List String := (finishedLinesFrom [] s.toList).map String.ofList

end BlockWorkbench.Text
