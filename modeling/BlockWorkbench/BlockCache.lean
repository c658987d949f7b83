import BlockWorkbench.Json.Literal
import BlockWorkbench.Journal

/-!
The cache of fetched blocks. It has exactly four slots, numbered from 1; each holds the last
value written to it. Addressing any other slot is noted in the journal and changes nothing.
-/

namespace BlockWorkbench

inductive Slot where
  | first
  | second
  | third
  | fourth
  deriving DecidableEq, Repr

namespace Slot

def all : List Slot := [first, second, third, fourth]

def number : Slot → Nat
  | first => 1
  | second => 2
  | third => 3
  | fourth => 4

/-- The slot that a value addresses: one that equals its number. -/
def ofJson? (v : Json) : Option Slot := all.find? fun s => v.same (.int s.number)

end Slot

/-- Four values of type `α`. -/
structure BlockCache (α : Type) where
  first : α
  second : α
  third : α
  fourth : α
  deriving Repr

namespace BlockCache

variable {α : Type}

/-- A cache with `nothing` in each slot. -/
def empty (nothing : α) : BlockCache α := ⟨nothing, nothing, nothing, nothing⟩

def get (c : BlockCache α) : Slot → α
  | .first => c.first
  | .second => c.second
  | .third => c.third
  | .fourth => c.fourth

def set (c : BlockCache α) (slot : Slot) (value : α) : BlockCache α :=
  match slot with
  | .first => { c with first := value }
  | .second => { c with second := value }
  | .third => { c with third := value }
  | .fourth => { c with fourth := value }

@[simp] theorem get_set (c : BlockCache α) (s t : Slot) (value : α) :
    (c.set s value).get t = if t = s then value else c.get t := by
  cases s <;> cases t <;> rfl

def source : String := "streamline.dataflow.cache"

/-- The record of an access to a slot that does not exist. -/
def invalidSlot (slot : Json) : Record :=
  ⟨.warning, source, "Invalid block cache slot " ++ slot.literal⟩

/-- Writes a slot given by a client; tells whether it exists. -/
def write (c : BlockCache α) (slot : Json) (value : α) : Bool × BlockCache α × List Record :=
  match Slot.ofJson? slot with
  | some s => (true, c.set s value, [])
  | none => (false, c, [invalidSlot slot])

/-- Reads a slot given by a client; a slot that does not exist holds nothing. -/
def read (c : BlockCache α) (nothing : α) (slot : Json) : α × List Record :=
  match Slot.ofJson? slot with
  | some s => (c.get s, [])
  | none => (nothing, [invalidSlot slot])

/-- The values with the numbers of their slots. -/
def snapshot (c : BlockCache α) : List (Nat × α) := Slot.all.map fun s => (s.number, c.get s)

/-- The cache in one line: which slots hold something. -/
def literal (c : BlockCache α) (holds : α → Bool) : String :=
  let filled := (c.snapshot.filter fun e => holds e.2).map fun e => Json.int e.1
  "<" ++ source ++ ".BlockCache filled=" ++ (Json.list filled : Json).literal ++ ">"

end BlockCache

end BlockWorkbench
