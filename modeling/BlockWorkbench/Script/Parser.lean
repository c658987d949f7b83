import BlockWorkbench.Script.Lexer
import BlockWorkbench.Script.Program

/-!
Trees from tokens. Every part of the grammar is a function from the tokens ahead to a tree and
the tokens behind it; the first token that cannot go on decides what kind of fault the text has.
-/

namespace BlockWorkbench.Script

/-- Why a text cannot go on, and how many tokens are left there. -/
structure Stop where
  fault : SyntaxFault
  left : Nat
  deriving Repr

/-- Nothing is left to go on with. -/
def Stop.atEnd : Stop := ⟨.malformed, 0⟩

/-- The fault of a text that cannot go on with the tokens ahead. -/
def faultAt : List Token → SyntaxFault
  | .fault f :: _ => f
  | .indent :: _ | .dedent :: _ => .unexpectedIndent
  | _ => .malformed

/-- A text that cannot go on with the tokens ahead. -/
def stopAt (ts : List Token) : Stop := ⟨faultAt ts, ts.length⟩

/-- Whether the text stops being made of tokens further on. -/
def breaksOff (ts : List Token) : Bool :=
  ts.any fun
    | .fault .malformed => true
    | _ => false

/-- Passes over an operator. -/
def expectOp (s : String) (ts : List Token) : Except Stop (List Token) :=
  match ts with
  | .op t :: rest => if t = s then .ok rest else .error (stopAt ts)
  | ts => .error (stopAt ts)

def expectKeyword (s : String) (ts : List Token) : Except Stop (List Token) :=
  match ts with
  | .keyword t :: rest => if t = s then .ok rest else .error (stopAt ts)
  | ts => .error (stopAt ts)

/-- How tightly the parts of an expression bind, from the loosest. -/
inductive Level where
  | conditional
  | either
  | both
  | negation
  | comparison
  | sum
  | product
  | sign
  | power
  deriving DecidableEq, Repr

/-- A comparison, and what follows it. -/
def compareOp? : List Token → Option (CompareOp × List Token)
  | .op "==" :: rest => some (.eq, rest)
  | .op "!=" :: rest => some (.ne, rest)
  | .op "<" :: rest => some (.lt, rest)
  | .op ">" :: rest => some (.gt, rest)
  | .op "<=" :: rest => some (.le, rest)
  | .op ">=" :: rest => some (.ge, rest)
  | .keyword "in" :: rest => some (.isIn, rest)
  | .keyword "not" :: .keyword "in" :: rest => some (.notIn, rest)
  | .keyword "is" :: .keyword "not" :: rest => some (.notSame, rest)
  | .keyword "is" :: rest => some (.same, rest)
  | _ => none

def sumOp? : List Token → Option (BinaryOp × List Token)
  | .op "+" :: rest => some (.add, rest)
  | .op "-" :: rest => some (.sub, rest)
  | _ => none

def productOp? : List Token → Option (BinaryOp × List Token)
  | .op "*" :: rest => some (.mul, rest)
  | .op "/" :: rest => some (.div, rest)
  | .op "//" :: rest => some (.floorDiv, rest)
  | .op "%" :: rest => some (.mod, rest)
  | _ => none

/-- Strings side by side are one string. -/
def adjacentStrings (s : Points) : List Token → Points × List Token
  | .str t :: rest => adjacentStrings (s ++ t) rest
  | ts => (s, ts)

/-- Whether an expression may start here. -/
def startsExpr : List Token → Bool
  | .name _ :: _ | .int _ :: _ | .float _ :: _ | .str _ :: _ => true
  | .op s :: _ => ["(", "[", "\x7b", "+", "-"].contains s
  | .keyword s :: _ => ["None", "True", "False", "not"].contains s
  | _ => false

mutual

/-- An expression whose parts bind at least as tightly as `level`. -/
def parseExpr : Nat → Level → List Token → Except Stop (Expr × List Token)
  | 0, _, _ => .error .atEnd
  | fuel + 1, level, ts =>
    match level with
    | .conditional => do
      let (e, rest) ← parseExpr fuel .either ts
      match rest with
      | .keyword "if" :: rest =>
        let (test, rest) ← parseExpr fuel .either rest
        let rest ← expectKeyword "else" rest
        let (other, rest) ← parseExpr fuel .conditional rest
        return (.conditional test e other, rest)
      | rest => return (e, rest)
    | .either => do
      let (a, rest) ← parseExpr fuel .both ts
      match rest with
      | .keyword "or" :: rest =>
        let (b, rest) ← parseExpr fuel .either rest
        return (.either a b, rest)
      | rest => return (a, rest)
    | .both => do
      let (a, rest) ← parseExpr fuel .negation ts
      match rest with
      | .keyword "and" :: rest =>
        let (b, rest) ← parseExpr fuel .both rest
        return (.both a b, rest)
      | rest => return (a, rest)
    | .negation =>
      match ts with
      | .keyword "not" :: rest => do
        let (e, rest) ← parseExpr fuel .negation rest
        return (.not e, rest)
      | ts => parseExpr fuel .comparison ts
    | .comparison => do
      let (first, rest) ← parseExpr fuel .sum ts
      let (others, rest) ← parseComparisons fuel rest
      if others.isEmpty then return (first, rest) else return (.compare first others, rest)
    | .sum => do
      let (a, rest) ← parseExpr fuel .product ts
      parseSum fuel a rest
    | .product => do
      let (a, rest) ← parseExpr fuel .sign ts
      parseProduct fuel a rest
    | .sign =>
      match ts with
      | .op "+" :: rest => do
        let (e, rest) ← parseExpr fuel .sign rest
        return (.unary .plus e, rest)
      | .op "-" :: rest => do
        let (e, rest) ← parseExpr fuel .sign rest
        return (.unary .minus e, rest)
      | ts => parseExpr fuel .power ts
    | .power => do
      let (atom, rest) ← parseAtom fuel ts
      let (a, rest) ← parseTrailers fuel atom rest
      match rest with
      | .op "**" :: rest =>
        let (b, rest) ← parseExpr fuel .sign rest
        return (.binary .pow a b, rest)
      | rest => return (a, rest)

def parseComparisons :
    Nat → List Token → Except Stop (List (CompareOp × Expr) × List Token)
  | 0, _ => .error .atEnd
  | fuel + 1, ts =>
    match compareOp? ts with
    | none => .ok ([], ts)
    | some (op, rest) => do
      let (e, rest) ← parseExpr fuel .sum rest
      let (more, rest) ← parseComparisons fuel rest
      return ((op, e) :: more, rest)

/-- The terms behind `a`, taken from the left. -/
def parseSum : Nat → Expr → List Token → Except Stop (Expr × List Token)
  | 0, _, _ => .error .atEnd
  | fuel + 1, a, ts =>
    match sumOp? ts with
    | none => .ok (a, ts)
    | some (op, rest) => do
      let (b, rest) ← parseExpr fuel .product rest
      parseSum fuel (.binary op a b) rest

/-- The factors behind `a`, taken from the left. -/
def parseProduct : Nat → Expr → List Token → Except Stop (Expr × List Token)
  | 0, _, _ => .error .atEnd
  | fuel + 1, a, ts =>
    match productOp? ts with
    | none => .ok (a, ts)
    | some (op, rest) => do
      let (b, rest) ← parseExpr fuel .sign rest
      parseProduct fuel (.binary op a b) rest

/-- Members, calls and indexes behind `e`. -/
def parseTrailers : Nat → Expr → List Token → Except Stop (Expr × List Token)
  | 0, _, _ => .error .atEnd
  | fuel + 1, e, ts =>
    match ts with
    | .op "." :: .name s :: rest => parseTrailers fuel (.member e s) rest
    | .op "." :: rest => .error (stopAt rest)
    | .op "(" :: rest => do
      let (args, rest) ← parseItems fuel ")" rest
      parseTrailers fuel (.call e args) rest
    | .op "[" :: rest => do
      let (key, rest) ← parseExprs fuel rest
      let rest ← expectOp "]" rest
      parseTrailers fuel (.index e key) rest
    | ts => .ok (e, ts)

def parseAtom : Nat → List Token → Except Stop (Expr × List Token)
  | 0, _ => .error .atEnd
  | fuel + 1, ts =>
    match ts with
    | .name s :: rest => .ok (.ofName s, rest)
    | .int n :: rest => .ok (.int n, rest)
    | .float x :: rest => .ok (.float x, rest)
    | .str s :: rest =>
      let (text, rest) := adjacentStrings s rest
      .ok (.str text, rest)
    | .keyword "None" :: rest => .ok (.none, rest)
    | .keyword "True" :: rest => .ok (.bool true, rest)
    | .keyword "False" :: rest => .ok (.bool false, rest)
    | .op "(" :: .op ")" :: rest => .ok (.tuple [], rest)
    | .op "(" :: rest => do
      let (e, rest) ← parseExprs fuel rest
      let rest ← expectOp ")" rest
      return (e, rest)
    | .op "[" :: rest => do
      let (items, rest) ← parseItems fuel "]" rest
      return (.list items, rest)
    | .op "\x7b" :: rest => do
      let (entries, rest) ← parseEntries fuel rest
      return (.dict entries, rest)
    | ts => .error (stopAt ts)

/-- One expression, or several with commas between them that make a tuple. -/
def parseExprs : Nat → List Token → Except Stop (Expr × List Token)
  | 0, _ => .error .atEnd
  | fuel + 1, ts => do
    let (e, rest) ← parseExpr fuel .conditional ts
    match rest with
    | .op "," :: rest =>
      let (more, rest) ← parseTupleTail fuel rest
      return (.tuple (e :: more), rest)
    | rest => return (e, rest)

/-- The items of a tuple behind its first comma. -/
def parseTupleTail : Nat → List Token → Except Stop (List Expr × List Token)
  | 0, _ => .error .atEnd
  | fuel + 1, ts =>
    if startsExpr ts then do
      let (e, rest) ← parseExpr fuel .conditional ts
      match rest with
      | .op "," :: rest =>
        let (more, rest) ← parseTupleTail fuel rest
        return (e :: more, rest)
      | rest => return ([e], rest)
    else .ok ([], ts)

/-- Items up to a closing bracket. -/
def parseItems : Nat → String → List Token → Except Stop (List Expr × List Token)
  | 0, _, _ => .error .atEnd
  | fuel + 1, close, ts =>
    match expectOp close ts with
    | .ok rest => .ok ([], rest)
    | .error _ => do
      let (e, rest) ← parseExpr fuel .conditional ts
      match rest with
      | .op "," :: rest =>
        let (more, rest) ← parseItems fuel close rest
        return (e :: more, rest)
      | rest => return ([e], ← expectOp close rest)

/-- Entries of a dictionary up to its closing bracket. -/
def parseEntries : Nat → List Token → Except Stop (List (Expr × Expr) × List Token)
  | 0, _ => .error .atEnd
  | fuel + 1, ts =>
    match ts with
    | .op "\x7d" :: rest => .ok ([], rest)
    | ts => do
      let (key, rest) ← parseExpr fuel .conditional ts
      let rest ← expectOp ":" rest
      let (value, rest) ← parseExpr fuel .conditional rest
      match rest with
      | .op "," :: rest =>
        let (more, rest) ← parseEntries fuel rest
        return ((key, value) :: more, rest)
      | rest => return ([(key, value)], ← expectOp "\x7d" rest)

end

mutual

/-- An expression as something to assign to. -/
def targetOf? : Expr → Option Target
  | .name s => some (.name s)
  | .index e key => some (.index e key)
  | .member e name => some (.member e name)
  | .tuple items | .list items => (targetsOf? items).map .tuple
  | _ => none

def targetsOf? : List Expr → Option (List Target)
  | [] => some []
  | e :: rest => do return (← targetOf? e) :: (← targetsOf? rest)

end

/-- Something to assign to that is not several things. -/
def singleTargetOf? : Expr → Option Target
  | .tuple _ | .list _ => none
  | e => targetOf? e

/-- A target, or a stop where there is none. -/
def targetAt {α : Type} (ts : List Token) : Option α → Except Stop α
  | some target => .ok target
  | none => .error (stopAt ts)

def augmentOp? : List Token → Option (BinaryOp × List Token)
  | .op "+=" :: rest => some (.add, rest)
  | .op "-=" :: rest => some (.sub, rest)
  | .op "*=" :: rest => some (.mul, rest)
  | .op "/=" :: rest => some (.div, rest)
  | .op "//=" :: rest => some (.floorDiv, rest)
  | .op "%=" :: rest => some (.mod, rest)
  | .op "**=" :: rest => some (.pow, rest)
  | _ => none

/-- The targets and the value of an assignment, behind the first target. -/
def parseAssigned (exprFuel : Nat) : Nat → List Expr → List Token →
    Except Stop ((List Expr × Expr) × List Token)
  | 0, _, _ => .error .atEnd
  | fuel + 1, targets, ts => do
    let (e, rest) ← parseExprs exprFuel ts
    match rest with
    | .op "=" :: rest => parseAssigned exprFuel fuel (targets ++ [e]) rest
    | rest => return ((targets, e), rest)

/-- A statement that starts with an expression. -/
def parseExprStmt (fuel : Nat) (ts : List Token) : Except Stop (Stmt × List Token) := do
  let (e, rest) ← parseExprs fuel ts
  match rest with
  | .op "=" :: rest =>
    let ((targets, value), rest) ← parseAssigned fuel fuel [e] rest
    return (.assign (← targetAt ts (targetsOf? targets)) value, rest)
  | rest =>
    match augmentOp? rest with
    | some (op, rest) =>
      let target ← targetAt ts (singleTargetOf? e)
      let (value, rest) ← parseExprs fuel rest
      return (.augment target op value, rest)
    | none => return (.expr e, rest)

/-- A statement within a line. -/
def parseSmall (fuel : Nat) (ts : List Token) : Except Stop (Stmt × List Token) :=
  match ts with
  | .keyword "pass" :: rest => .ok (.pass, rest)
  | .keyword "break" :: rest => .ok (.break, rest)
  | .keyword "continue" :: rest => .ok (.continue, rest)
  | .keyword "return" :: rest =>
    if startsExpr rest then do
      let (e, rest) ← parseExprs fuel rest
      return (.return (some e), rest)
    else .ok (.return none, rest)
  | .keyword "raise" :: rest =>
    if startsExpr rest then do
      let (e, rest) ← parseExpr fuel .conditional rest
      return (.raise (some e), rest)
    else .ok (.raise none, rest)
  | ts => parseExprStmt fuel ts

/-- The statements of one line. -/
def parseLine (exprFuel : Nat) : Nat → List Token → Except Stop (List Stmt × List Token)
  | 0, _ => .error .atEnd
  | fuel + 1, ts => do
    let (s, rest) ← parseSmall exprFuel ts
    match rest with
    | .newline :: rest => return ([s], rest)
    | .op ";" :: .newline :: rest => return ([s], rest)
    | .op ";" :: rest =>
      let (more, rest) ← parseLine exprFuel fuel rest
      return (s :: more, rest)
    | rest => throw (stopAt rest)

/-- Parameters up to the closing bracket; those with a default come last. -/
def parseParams (exprFuel : Nat) : Nat → Bool → List Token →
    Except Stop (List Param × List Token)
  | 0, _, _ => .error .atEnd
  | fuel + 1, defaulted, ts =>
    match ts with
    | .op ")" :: rest => .ok ([], rest)
    | .name s :: .op "=" :: rest => do
      let (e, rest) ← parseExpr exprFuel .conditional rest
      match rest with
      | .op "," :: rest =>
        let (more, rest) ← parseParams exprFuel fuel true rest
        return (⟨s, some e⟩ :: more, rest)
      | rest => return ([⟨s, some e⟩], ← expectOp ")" rest)
    | .name s :: rest =>
      if defaulted then .error (stopAt ts)
      else do
        match rest with
        | .op "," :: rest =>
          let (more, rest) ← parseParams exprFuel fuel false rest
          return (⟨s, none⟩ :: more, rest)
        | rest => return ([⟨s, none⟩], ← expectOp ")" rest)
    | ts => .error (stopAt ts)

/-- The target of a loop: names, indexes and members with commas between them. -/
def parseLoopTarget (exprFuel : Nat) : Nat → List Token →
    Except Stop ((List Expr × Bool) × List Token)
  | 0, _ => .error .atEnd
  | fuel + 1, ts => do
    let (atom, rest) ← parseAtom exprFuel ts
    let (e, rest) ← parseTrailers exprFuel atom rest
    match rest with
    | .op "," :: .keyword "in" :: rest => return (([e], true), .keyword "in" :: rest)
    | .op "," :: rest =>
      let ((more, _), rest) ← parseLoopTarget exprFuel fuel rest
      return ((e :: more, true), rest)
    | rest => return (([e], false), rest)

mutual

/-- A statement, or the statements of one line. -/
def parseStmt (exprFuel : Nat) : Nat → List Token → Except Stop (List Stmt × List Token)
  | 0, _ => .error .atEnd
  | fuel + 1, ts =>
    match ts with
    | .keyword "def" :: .name s :: rest => do
      let rest ← expectOp "(" rest
      let (params, rest) ← parseParams exprFuel exprFuel false rest
      let (body, rest) ← parseSuite exprFuel fuel rest
      return ([.define s params body], rest)
    | .keyword "def" :: rest => .error (stopAt rest)
    | .keyword "if" :: rest => do
      let (s, rest) ← parseBranch exprFuel fuel rest
      return ([s], rest)
    | .keyword "for" :: rest => do
      let ((items, several), rest) ← parseLoopTarget exprFuel exprFuel rest
      let targets ← targetAt ts (targetsOf? items)
      let target := if several then .tuple targets else targets.headD (.tuple [])
      let rest ← expectKeyword "in" rest
      let (e, rest) ← parseExprs exprFuel rest
      let (body, rest) ← parseSuite exprFuel fuel rest
      let (orelse, rest) ← parseElse exprFuel fuel rest
      return ([.forEach target e body orelse], rest)
    | .keyword "while" :: rest => do
      let (test, rest) ← parseExpr exprFuel .conditional rest
      let (body, rest) ← parseSuite exprFuel fuel rest
      let (orelse, rest) ← parseElse exprFuel fuel rest
      return ([.loop test body orelse], rest)
    | ts => parseLine exprFuel exprFuel ts

/-- A branch behind its keyword. -/
def parseBranch (exprFuel : Nat) : Nat → List Token → Except Stop (Stmt × List Token)
  | 0, _ => .error .atEnd
  | fuel + 1, ts => do
    let (test, rest) ← parseExpr exprFuel .conditional ts
    let (body, rest) ← parseSuite exprFuel fuel rest
    match rest with
    | .keyword "elif" :: rest =>
      let (s, rest) ← parseBranch exprFuel fuel rest
      return (.branch test body [s], rest)
    | rest =>
      let (orelse, rest) ← parseElse exprFuel fuel rest
      return (.branch test body orelse, rest)

/-- What is done otherwise, if anything. -/
def parseElse (exprFuel : Nat) : Nat → List Token → Except Stop (List Stmt × List Token)
  | 0, _ => .error .atEnd
  | fuel + 1, ts =>
    match ts with
    | .keyword "else" :: rest => parseSuite exprFuel fuel rest
    | ts => .ok ([], ts)

/-- The statements behind a colon: on the same line, or indented on lines of their own. -/
def parseSuite (exprFuel : Nat) : Nat → List Token → Except Stop (List Stmt × List Token)
  | 0, _ => .error .atEnd
  | fuel + 1, ts => do
    let rest ← expectOp ":" ts
    match rest with
    | .newline :: .indent :: rest => parseBlock exprFuel fuel rest
    | .newline :: .fault f :: rest => throw ⟨f, rest.length + 1⟩
    | .newline :: rest =>
      throw ⟨if breaksOff rest then .malformed else .missingBlock, rest.length⟩
    | rest => parseLine exprFuel exprFuel rest

/-- Statements up to the end of their block. -/
def parseBlock (exprFuel : Nat) : Nat → List Token → Except Stop (List Stmt × List Token)
  | 0, _ => .error .atEnd
  | fuel + 1, ts => do
    let (s, rest) ← parseStmt exprFuel fuel ts
    match rest with
    | .dedent :: rest => return (s, rest)
    | rest =>
      let (more, rest) ← parseBlock exprFuel fuel rest
      return (s ++ more, rest)

end

/-- The statements of a whole text. -/
def parseAll (exprFuel : Nat) : Nat → List Token → Except Stop Program
  | _, [] => .ok []
  | 0, _ => .error .atEnd
  | fuel + 1, ts => do
    let (s, rest) ← parseStmt exprFuel (fuel + 1) ts
    return s ++ (← parseAll exprFuel fuel rest)

/-- Why a text is not a script, and the row where that shows. -/
structure SyntaxError where
  fault : SyntaxFault
  row : Nat
  deriving Repr

/-- The row of the first of the last `left` tokens. -/
def rowAt (tokens : List Placed) (left : Nat) : Nat :=
  ((tokens[tokens.length - left]?).map (·.row)).getD 1

/-- The program that a text is, if its tokens can be read as one. -/
def parseProgram (source : String) : Except SyntaxError Program :=
  let tokens := tokenize source
  let fuel := tokens.length
  (parseAll (16 * fuel + 16) (2 * fuel + 2) (tokens.map (·.token))).mapError fun stop =>
    ⟨stop.fault, rowAt tokens stop.left⟩

end BlockWorkbench.Script
