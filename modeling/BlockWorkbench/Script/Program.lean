import BlockWorkbench.Text.Points

/-!
Scripts as trees of statements and expressions.

The language is a part of the one that the engine runs. Its statements are expressions,
assignments to names, items, attributes and tuples of these, plain or with an operator, `pass`,
functions with positional parameters and defaults, `if`, `for`, `while`, `break`, `continue`,
`return` and `raise`. Its expressions are constants, names, lists, tuples, dictionaries,
arithmetic, comparisons, `and`, `or`, `not`, conditionals, items, attributes and calls with
positional arguments. Classes, imports, `del`, `try`, `with`, `assert`, `lambda`, `global`,
comprehensions, decorators, generators, slices, sets, bit operations, annotations and keyword
arguments are not in it: a text that has one of them is a fault of syntax here. Nor are names
other than those of `Builtin.named` and `errorClasses` predefined, so that no script evaluates a
text or gets hold of its scope as a dictionary.
-/

namespace BlockWorkbench.Script

inductive UnaryOp where
  | plus
  | minus
  deriving DecidableEq, Repr

inductive BinaryOp where
  | add
  | sub
  | mul
  | div
  | floorDiv
  | mod
  | pow
  deriving DecidableEq, Repr

inductive CompareOp where
  | eq
  | ne
  | lt
  | gt
  | le
  | ge
  | isIn
  | notIn
  | same
  | notSame
  deriving DecidableEq, Repr

inductive Expr where
  | none
  | bool (b : Bool)
  | int (n : Nat)
  | float (x : Float)
  | str (s : Points)
  | name (s : String)
  | list (items : List Expr)
  | tuple (items : List Expr)
  | dict (entries : List (Expr × Expr))
  | unary (op : UnaryOp) (e : Expr)
  | binary (op : BinaryOp) (a b : Expr)
  | compare (first : Expr) (rest : List (CompareOp × Expr))
  | both (a b : Expr)
  | either (a b : Expr)
  | not (e : Expr)
  | conditional (test whenTrue whenFalse : Expr)
  | index (e key : Expr)
  | member (e : Expr) (name : String)
  | call (f : Expr) (args : List Expr)
  deriving Repr, Inhabited

/-- The name of a constant. Nothing can be assigned to it. -/
def constantName : String := "__debug__"

/-- What a name stands for in an expression. -/
def Expr.ofName (s : String) : Expr := if s = constantName then .bool true else .name s

/-- What can be assigned to. -/
inductive Target where
  | name (s : String)
  | index (e key : Expr)
  | member (e : Expr) (name : String)
  | tuple (items : List Target)
  deriving Repr, Inhabited

/-- A parameter, with the value it takes when no argument is given for it. -/
structure Param where
  name : String
  default? : Option Expr
  deriving Repr

inductive Stmt where
  | expr (e : Expr)
  | assign (targets : List Target) (value : Expr)
  | augment (target : Target) (op : BinaryOp) (value : Expr)
  | pass
  | define (name : String) (params : List Param) (body : List Stmt)
  | branch (test : Expr) (body orelse : List Stmt)
  | forEach (target : Target) (items : Expr) (body orelse : List Stmt)
  | loop (test : Expr) (body orelse : List Stmt)
  | break
  | continue
  | return (value : Option Expr)
  | raise (value : Option Expr)
  deriving Repr, Inhabited

namespace Stmt

/-- Whether a statement only binds a function. -/
def isDefinition : Stmt → Bool
  | define .. => true
  | _ => false

end Stmt

/-- A unit of script: its statements at top level. -/
abbrev Program := List Stmt

end BlockWorkbench.Script
