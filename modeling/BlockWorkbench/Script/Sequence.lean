import BlockWorkbench.Script.Comparison
import BlockWorkbench.Text.Search

/-!
Values that hold other values: their items, how they are read and written at an index or a key,
whether they hold a value, and how they are run through while they may change.
-/

namespace BlockWorkbench.Script

/-- The characters of a text as texts. -/
def charactersOf (t : Points) : List Value := t.map fun p => .str [p]

/-- How many items a sequence may have. -/
def memoryLimit : Nat := 0x100000000

/-- A machine word holds the integers from `-wordLimit` to below `wordLimit`. -/
def wordLimit : Nat := 0x8000000000000000

/-- The length of a run, which must fit a machine word. -/
def lengthOfRange (start stop step : Int) : Except RuntimeFault Nat :=
  let n := rangeLength start stop step
  if wordLimit ≤ n then .error .lengthTooLarge else .ok n

/-- Whether a number is an item of a run. -/
def isInRange (start stop step : Int) (n : Number) : Bool :=
  let holds (i : Int) : Bool :=
    let (steps, left) := ((i - start).fdiv step, (i - start).fmod step)
    left == 0 && 0 ≤ steps && steps < rangeLength start stop step
  match n with
  | .int i => holds i
  | .float x =>
    match Number.classify x with
    | .finite b => (Number.int b.truncate).same n && holds b.truncate
    | _ => false

def rangeItems (start stop step : Int) : List Value :=
  (List.range (rangeLength start stop step)).map fun (i : Nat) => .int (start + step * i)

/-- The place of an index that may count from the end. -/
def place? (size : Nat) (i : Int) : Option Nat :=
  let i := if i < 0 then i + size else i
  if 0 ≤ i ∧ i < size then some i.toNat else none

/-- The place of an index, which must fit a machine word. -/
def place (what : String) (size : Nat) (i : Int) : Except RuntimeFault Nat :=
  if wordLimit ≤ i ∨ i < -wordLimit then .error .indexTooLarge
  else
    match place? size i with
    | some n => .ok n
    | none => .error (.outOfRange what)

namespace Store

/-- The items that a value runs through: characters of a text, keys of a dictionary. -/
def elements (s : Store) : Value → Except RuntimeFault (List Value)
  | .list a => .ok (s.items a).toList
  | .tuple items => .ok items
  | .str t => .ok (charactersOf t)
  | .dict a => .ok ((s.entries a).map (·.1))
  | .range start stop step =>
    if memoryLimit < rangeLength start stop step then .error .outOfMemory
    else .ok (rangeItems start stop step)
  | v => .error (.notIterable (s.typeName v))

def length (s : Store) : Value → Except RuntimeFault Nat
  | .list a => .ok (s.items a).size
  | .tuple items => .ok items.length
  | .str t => .ok t.length
  | .dict a => .ok (s.entries a).length
  | .range start stop step => lengthOfRange start stop step
  | v => .error (.noLength (s.typeName v))

/-- The value at an index or a key. -/
def item (s : Store) (v key : Value) : Except RuntimeFault Value :=
  match v with
  | .list a =>
    match key.integer? with
    | some i => do
      let items := s.items a
      return items.getD (← place "list index" items.size i) .none
    | none => .error (.badIndex "list" (s.typeName key))
  | .tuple items =>
    match key.integer? with
    | some i => do return items.getD (← place "tuple index" items.length i) .none
    | none => .error (.badIndex "tuple" (s.typeName key))
  | .str t =>
    match key.integer? with
    | some i => do return .str [t.getD (← place "string index" t.length i) (.ofChar ' ')]
    | none => .error (.badTextIndex (s.typeName key))
  | .range start stop step =>
    match key.integer? with
    | some i =>
      match place? (rangeLength start stop step) i with
      | some n => .ok (.int (start + step * n))
      | none => .error (.outOfRange "range object index")
    | none => .error (.badIndex "range" (s.typeName key))
  | .dict a => do
    let key ← key.asKey
    match valueAt? (s.entries a) key with
    | some v => return v
    | none => throw (.missingKey key)
  | .errorClass kind => .error (.typeNotSubscriptable kind.text)
  | .builtin b =>
    .error (if b.isType then .typeNotSubscriptable b.name
      else .notSubscriptable (s.typeName (.builtin b)))
  | v => .error (.notSubscriptable (s.typeName v))

/-- Writes the value at an index or a key. -/
def setItem (s : Store) (v key value : Value) : Except RuntimeFault Store :=
  match v with
  | .list a =>
    match key.integer? with
    | some i => do
      let n ← place "list assignment index" (s.items a).size i
      return s.modifyList a (·.setIfInBounds n value)
    | none => .error (.badIndex "list" (s.typeName key))
  | .dict a => do
    let key ← key.asKey
    return s.setEntries a (setEntry (s.entries a) key value)
  | v => .error (.noItemAssignment (s.typeName v))

/-- Whether one of `items` is `v`. -/
def isAmong (s : Store) (v : Value) : List Value → Except RuntimeFault Bool
  | [] => .ok false
  | w :: rest => do if ← s.alike w v then return true else isAmong s v rest

/-- Whether a value holds another: a text a part of it, a dictionary a key. -/
def contains (s : Store) (v inner : Value) : Except RuntimeFault Bool :=
  match v with
  | .str t =>
    match inner with
    | .str part => .ok (Text.occursIn part t)
    | w => .error (.notSearchable (s.typeName w))
  | .list a => s.isAmong inner (s.items a).toList
  | .tuple items => s.isAmong inner items
  | .dict a => do return (valueAt? (s.entries a) (← inner.asKey)).isSome
  | .range start stop step => .ok (inner.number?.any (isInRange start stop step))
  | v => .error (.notAContainer (s.typeName v))

end Store

/-- How far a loop has come. A list is read as it is at each turn; a dictionary must keep its
size. -/
inductive Cursor where
  | items (rest : List Value)
  | listAt (a : Address) (next : Nat)
  | keysAt (a : Address) (size : Nat) (rest : List Value)
  | rangeAt (next step : Int) (left : Nat)

namespace Cursor

/-- The start of a loop over a value. -/
def start (s : Store) : Value → Except RuntimeFault Cursor
  | .list a => .ok (listAt a 0)
  | .dict a => .ok (keysAt a (s.entries a).length ((s.entries a).map (·.1)))
  | .range first stop step => .ok (rangeAt first step (rangeLength first stop step))
  | v => do return items (← s.elements v)

/-- The next item of a loop, unless it is over. -/
def next (s : Store) : Cursor → Except RuntimeFault (Option (Value × Cursor))
  | items [] => .ok none
  | items (v :: rest) => .ok (some (v, items rest))
  | listAt a i => .ok ((s.items a)[i]?.map fun v => (v, listAt a (i + 1)))
  | keysAt a size rest =>
    if (s.entries a).length ≠ size then .error .sizeChanged
    else
      match rest with
      | [] => .ok none
      | v :: rest => .ok (some (v, keysAt a size rest))
  | rangeAt _ _ 0 => .ok none
  | rangeAt v step (left + 1) => .ok (some (.int v, rangeAt (v + step) step left))

end Cursor

end BlockWorkbench.Script
