import BlockWorkbench.Script.Arithmetic
import BlockWorkbench.Script.Template

/-!
Operators on values. Numbers are computed with; texts, lists and tuples are joined by `+` and
repeated by `*`, and a text is filled as a template by `%`.
-/

namespace BlockWorkbench.Script

/-- An operator as complaints name it, by itself or with an assignment. -/
def BinaryOp.symbol (inPlace : Bool) : BinaryOp → String
  | .add => if inPlace then "+=" else "+"
  | .sub => if inPlace then "-=" else "-"
  | .mul => if inPlace then "*=" else "*"
  | .div => if inPlace then "/=" else "/"
  | .floorDiv => if inPlace then "//=" else "//"
  | .mod => if inPlace then "%=" else "%"
  | .pow => if inPlace then "**=" else "** or pow()"

/-- A list that often, one after another; not at all for a negative number. -/
def repeated {α : Type} (n : Int) (items : List α) : List α :=
  (List.replicate n.toNat items).flatten

namespace Store

/-- What `+` makes of a sequence and another value. -/
def joined (s : Store) (a b : Value) : Option (Except RuntimeFault (Value × Store)) :=
  match a, b with
  | .str t, .str u => some (.ok (.str (t ++ u), s))
  | .str _, b => some (.error (.notConcatenable "str" (s.typeName b)))
  | .tuple as, .tuple bs => some (.ok (.tuple (as ++ bs), s))
  | .tuple _, b => some (.error (.notConcatenable "tuple" (s.typeName b)))
  | .list a, .list b => some (.ok (s.addList (s.items a ++ s.items b)))
  | .list _, b => some (.error (.notConcatenable "list" (s.typeName b)))
  | _, _ => none

/-- How often a sequence of some size may be repeated: a machine word, and as many items as
memory can hold. -/
def repetitions (size : Nat) (v : Value) (typeName : String) : Except RuntimeFault Int :=
  match v.integer? with
  | none => .error (.notRepeatable typeName)
  | some n =>
    if wordLimit ≤ n ∨ n < -wordLimit then .error .repeatTooLarge
    else if memoryLimit < n.toNat * size then .error .outOfMemory
    else .ok n

/-- What a sequence times a value is. -/
def times (s : Store) (v n : Value) : Option (Except RuntimeFault (Value × Store)) :=
  match v with
  | .str t => some do
    let n ← repetitions t.length n (s.typeName n)
    return (.str (repeated n t), s)
  | .tuple items => some do
    let n ← repetitions items.length n (s.typeName n)
    return (.tuple (repeated n items), s)
  | .list a => some do
    let n ← repetitions (s.items a).size n (s.typeName n)
    return s.addList (repeated n (s.items a).toList).toArray
  | _ => none

/-- What `*` makes of two values one of which is a sequence. A container that cannot be repeated
takes no product in its place. -/
def multiplied (s : Store) (inPlace : Bool) (a b : Value) :
    Option (Except RuntimeFault (Value × Store)) :=
  match a with
  | .dict _ | .range .. => if inPlace then none else s.times b a
  | a => (s.times a b).or (s.times b a)

/-- What `%` makes of a text and another value. -/
def filled (s : Store) (a b : Value) : Option (Except RuntimeFault (Value × Store)) :=
  match a with
  | .str t => some do return (.str (← Template.fill s t b), s)
  | _ => none

/-- The value of a binary operation. -/
def operate (s : Store) (inPlace : Bool) (op : BinaryOp) (a b : Value) :
    Except RuntimeFault (Value × Store) :=
  match a.number?, b.number? with
  | some m, some n => do return (.ofNumber (← arithmetic op m n), s)
  | _, _ =>
    let onSequences := match op with
      | .add => s.joined a b
      | .mul => s.multiplied inPlace a b
      | .mod => s.filled a b
      | _ => none
    onSequences.getD
      (.error (.unsupportedOperands (op.symbol inPlace) (s.typeName a) (s.typeName b)))

/-- The value of an operation that is assigned to its first operand. A list is changed where it
is, and takes in whatever can be run through. -/
def operateInPlace (s : Store) (op : BinaryOp) (a b : Value) :
    Except RuntimeFault (Value × Store) :=
  match op, a with
  | .add, .list l => do
    let more ← s.elements b
    return (a, s.modifyList l (· ++ more.toArray))
  | .mul, .list l => do
    let n ← repetitions (s.items l).size b (s.typeName b)
    return (a, s.modifyList l fun items => (repeated n items.toList).toArray)
  | op, a => s.operate true op a b

def unary (s : Store) (op : UnaryOp) (v : Value) : Except RuntimeFault Value :=
  match v.number?, op with
  | some n, .plus => .ok (.ofNumber n)
  | some n, .minus => .ok (.ofNumber (negate n))
  | none, .plus => .error (.badOperand "unary +" (s.typeName v))
  | none, .minus => .error (.badOperand "unary -" (s.typeName v))

/-- The outcome of one comparison. -/
def compareBy (s : Store) (op : CompareOp) (a b : Value) : Except RuntimeFault Bool :=
  match op with
  | .eq => s.equal a b
  | .ne => do return !(← s.equal a b)
  | .isIn => s.contains b a
  | .notIn => do return !(← s.contains b a)
  | .same => .ok (Value.isSame a b)
  | .notSame => .ok (!Value.isSame a b)
  | .lt => s.ordered .less a b
  | .gt => s.ordered .greater a b
  | .le => s.ordered .atMost a b
  | .ge => s.ordered .atLeast a b

end Store

end BlockWorkbench.Script
