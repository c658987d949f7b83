import BlockWorkbench.Script.RuntimeFault
import BlockWorkbench.Script.Literal

/-!
Equality and order of values. Numbers are compared by value and truth values count as numbers;
lists and tuples are compared item by item; dictionaries are equal if they have equal values at
the same keys, in whatever order.
-/

namespace BlockWorkbench.Script

/-- The number of items of a run of integers. -/
def rangeLength (start stop step : Int) : Nat :=
  if 0 < step then ((stop - start + step - 1) / step).toNat
  else ((start - stop - step - 1) / (-step)).toNat

/-- Two runs are equal if they have the same items. -/
def sameRange (start stop step start' stop' step' : Int) : Bool :=
  let n := rangeLength start stop step
  n == rangeLength start' stop' step'
    && (n == 0 || (start == start' && (n == 1 || step == step')))

mutual

/-- Whether two keys are the same key. Nothing that can change is a key, so the store is not
looked at. -/
def Value.sameKey : Value → Value → Bool
  | .none, .none => true
  | .str a, .str b => a == b
  | .tuple a, .tuple b => sameKeys a b
  | .range a b c, .range a' b' c' => sameRange a b c a' b' c'
  | .function a, .function b | .error a, .error b => a == b
  | .builtin a, .builtin b => a == b
  | .errorClass a, .errorClass b => a == b
  | .method m v, .method m' v' => m == m' && v.sameKey v'
  | a, b =>
    match a.number?, b.number? with
    | some m, some n => m.same n
    | _, _ => false

def sameKeys : List Value → List Value → Bool
  | [], [] => true
  | a :: as, b :: bs => a.sameKey b && sameKeys as bs
  | _, _ => false

end

/-- The entry of a key. -/
def valueAt? (entries : List (Value × Value)) (key : Value) : Option Value :=
  (entries.find? fun e => e.1.sameKey key).map (·.2)

/-- Sets the entry of a key: in place if the key is present, at the end if not. -/
def setEntry : List (Value × Value) → Value → Value → List (Value × Value)
  | [], key, v => [(key, v)]
  | (k, w) :: rest, key, v =>
    if k.sameKey key then (k, v) :: rest else (k, w) :: setEntry rest key v

mutual

/-- The part of a value that keeps it from being a key. -/
def Value.unhashable? : Value → Option String
  | .list _ => some "list"
  | .dict _ => some "dict"
  | .tuple items => unhashableItem? items
  | _ => Option.none

def unhashableItem? : List Value → Option String
  | [] => Option.none
  | v :: rest => v.unhashable?.or (unhashableItem? rest)

end

/-- A value as a key. -/
def Value.asKey (v : Value) : Except RuntimeFault Value :=
  match v.unhashable? with
  | some t => .error (.unhashable t)
  | Option.none => .ok v

/-- Whether two values are one object; values that cannot change are one object if they are
alike. -/
def Value.isSame : Value → Value → Bool
  | .list a, .list b | .dict a, .dict b => a == b
  | .bool a, .bool b => a == b
  | .int a, .int b => a == b
  | .float a, .float b => a == b
  | .bool _, _ | .int _, _ | .float _, _ | _, .bool _ | _, .int _ | _, .float _ => false
  | a, b => a.sameKey b

namespace Store

/-- Pairs compared one after another, up to the first that differs. -/
def allPairs {α : Type} (test : α → α → Except RuntimeFault Bool) :
    List α → List α → Except RuntimeFault Bool
  | [], [] => .ok true
  | a :: as, b :: bs => do if ← test a b then allPairs test as bs else return false
  | _, _ => .ok false

/-- Whether every entry has an equal one in `other`. -/
def allEntries (test : Value → Value → Except RuntimeFault Bool)
    (other : List (Value × Value)) : List (Value × Value) → Except RuntimeFault Bool
  | [] => .ok true
  | (k, v) :: rest =>
    match valueAt? other k with
    | some w => do if ← test v w then allEntries test other rest else return false
    | none => .ok false

/-- Equality of values. Inside lists and dictionaries an object is equal to itself unseen. -/
def equalWithin (s : Store) : Nat → Value → Value → Except RuntimeFault Bool
  | 0, _, _ => .error .tooDeep
  | depth + 1, a, b =>
    let test := fun v w => if Value.isSame v w then .ok true else equalWithin s depth v w
    match a, b with
    | .tuple as, .tuple bs => if as.length = bs.length then allPairs test as bs else .ok false
    | .list a, .list b =>
      let (as, bs) := (s.items a, s.items b)
      if as.size = bs.size then allPairs test as.toList bs.toList else .ok false
    | .dict a, .dict b =>
      let (as, bs) := (s.entries a, s.entries b)
      if as.length = bs.length then allEntries test bs as else .ok false
    | a, b => .ok (a.sameKey b)

def equal (s : Store) (a b : Value) : Except RuntimeFault Bool := s.equalWithin nestingLimit a b

/-- Equality as containers test it: an object is equal to itself. -/
def alike (s : Store) (a b : Value) : Except RuntimeFault Bool :=
  if Value.isSame a b then .ok true else s.equal a b

end Store

/-- The four orders. -/
inductive OrderOp where
  | less
  | greater
  | atMost
  | atLeast
  deriving DecidableEq, Repr

namespace OrderOp

def symbol : OrderOp → String
  | less => "<"
  | greater => ">"
  | atMost => "<="
  | atLeast => ">="

/-- Whether an outcome of a comparison is one that the order asks for. -/
def admits : OrderOp → Ordering → Bool
  | less, o => o == .lt
  | greater, o => o == .gt
  | atMost, o => o != .gt
  | atLeast, o => o != .lt

end OrderOp

namespace Store

/-- The first pair that differs, or what is left when one list ends. -/
def firstDifference (test : Value → Value → Except RuntimeFault Bool) :
    List Value → List Value → Except RuntimeFault (Option (Value × Value) × Ordering)
  | a :: as, b :: bs => do
    if ← test a b then firstDifference test as bs else return (some (a, b), .eq)
  | [], [] => .ok (none, .eq)
  | [], _ => .ok (none, .lt)
  | _, [] => .ok (none, .gt)

/-- Order of values. Lists and tuples are ordered by their first items that differ, and by
length if none do. -/
def orderedWithin (s : Store) (op : OrderOp) : Nat → Value → Value → Except RuntimeFault Bool
  | 0, _, _ => .error .tooDeep
  | depth + 1, a, b =>
    let sequences := fun as bs => do
      match ← firstDifference s.alike as bs with
      | (some (v, w), _) => orderedWithin s op depth v w
      | (none, o) => return op.admits o
    match a, b with
    | .str t, .str u => .ok (op.admits (compare t u))
    | .tuple as, .tuple bs => sequences as bs
    | .list a, .list b => sequences (s.items a).toList (s.items b).toList
    | a, b =>
      match a.number?, b.number? with
      | some m, some n => .ok ((m.compare? n).any op.admits)
      | _, _ => .error (.unordered op.symbol (s.typeName a) (s.typeName b))

def ordered (s : Store) (op : OrderOp) (a b : Value) : Except RuntimeFault Bool :=
  s.orderedWithin op nestingLimit a b

end Store

end BlockWorkbench.Script
