import BlockWorkbench.Document
import BlockWorkbench.Fault

/-!
MessagePack, the binary form of documents. Every value is written in the shortest of its forms:
small numbers and lengths share a byte with the kind of the value, others follow it in as few
bytes as the format offers. Texts are written in UTF-8, which has no form for half of a pair.
-/

namespace BlockWorkbench.MessagePack

/-- The last `width` bytes of a number, the most significant first. -/
def bigEndian : Nat → Nat → List UInt8
  | 0, _ => []
  | width + 1, n => bigEndian width (n / 0x100) ++ [UInt8.ofNat n]

@[simp] theorem length_bigEndian (width n : Nat) : (bigEndian width n).length = width := by
  induction width generalizing n with
  | zero => rfl
  | succ width ih => simp [bigEndian, ih]

/-- A natural number; beyond 64 bits there is no form. -/
def packNatural (n : Nat) : Except Fault (List UInt8) :=
  if n < 0x80 then .ok [UInt8.ofNat n]
  else if n < 0x100 then .ok (0xcc :: bigEndian 1 n)
  else if n < 0x10000 then .ok (0xcd :: bigEndian 2 n)
  else if n < 0x100000000 then .ok (0xce :: bigEndian 4 n)
  else if n < 0x10000000000000000 then .ok (0xcf :: bigEndian 8 n)
  else .error .integerOutOfRange

/-- The negative number whose distance from zero is `n`, as its two's complement. -/
def packNegative (n : Nat) : Except Fault (List UInt8) :=
  if n ≤ 0x20 then .ok [UInt8.ofNat (0x100 - n)]
  else if n ≤ 0x80 then .ok (0xd0 :: bigEndian 1 (0x100 - n))
  else if n ≤ 0x8000 then .ok (0xd1 :: bigEndian 2 (0x10000 - n))
  else if n ≤ 0x80000000 then .ok (0xd2 :: bigEndian 4 (0x100000000 - n))
  else if n ≤ 0x8000000000000000 then .ok (0xd3 :: bigEndian 8 (0x10000000000000000 - n))
  else .error .integerOutOfRange

def packInt (n : Int) : Except Fault (List UInt8) :=
  if 0 ≤ n then packNatural n.toNat else packNegative n.natAbs

def packBool (b : Bool) : List UInt8 := [if b then 0xc3 else 0xc2]

def packFloat (x : Float) : List UInt8 := 0xcb :: bigEndian 8 x.toBits.toNat

/-- The head of a string of `size` bytes. -/
def stringHead (size : Nat) : List UInt8 :=
  if size < 0x20 then [UInt8.ofNat (0xa0 + size)]
  else if size < 0x100 then 0xd9 :: bigEndian 1 size
  else if size < 0x10000 then 0xda :: bigEndian 2 size
  else 0xdb :: bigEndian 4 size

def packString (s : String) : List UInt8 :=
  let bytes := s.toUTF8.toList
  stringHead bytes.length ++ bytes

def listHead (size : Nat) : List UInt8 :=
  if size < 0x10 then [UInt8.ofNat (0x90 + size)]
  else if size < 0x10000 then 0xdc :: bigEndian 2 size
  else 0xdd :: bigEndian 4 size

def dictHead (size : Nat) : List UInt8 :=
  if size < 0x10 then [UInt8.ofNat (0x80 + size)]
  else if size < 0x10000 then 0xde :: bigEndian 2 size
  else 0xdf :: bigEndian 4 size

/-- How many bytes, items or entries a value may have. -/
def sizeLimit : Nat := 0x100000000

def checkSize (what : String) (size : Nat) : Except Fault Unit :=
  if size < sizeLimit then .ok () else .error (.packedTooLarge what)

def packText (t : Points) : Except Fault (List UInt8) :=
  match t.string? with
  | none => .error (.notEncodable t)
  | some s => do
    checkSize "unicode string" s.toUTF8.size
    return packString s

def packScalar : Scalar Points → Except Fault (List UInt8)
  | .null => .ok [0xc0]
  | .bool b => .ok (packBool b)
  | .int n => packInt n
  | .float x => .ok (packFloat x)
  | .str s => packText s

/-- How deep documents can be nested, the outermost one counted. -/
def nestingLimit : Nat := 512

mutual

/-- A document that may be `room` values deep. -/
def packWithin (room : Nat) (d : Document) : Except Fault (List UInt8) :=
  if room = 0 then .error .packedTooDeep
  else
    match d with
    | .null => .ok [0xc0]
    | .bool b => .ok (packBool b)
    | .int n => packInt n
    | .float x => .ok (packFloat x)
    | .str s => packText s
    | .list items => do
      checkSize "list" items.length
      return listHead items.length ++ (← packItems (room - 1) items)
    | .dict entries => do
      checkSize "dict" entries.length
      return dictHead entries.length ++ (← packEntries (room - 1) entries)

def packItems (room : Nat) : List Document → Except Fault (List UInt8)
  | [] => .ok []
  | d :: rest => do
    let first ← packWithin room d
    return first ++ (← packItems room rest)

/-- Every key is followed by its value; keys are as deep as values. -/
def packEntries (room : Nat) : List (Scalar Points × Document) → Except Fault (List UInt8)
  | [] => .ok []
  | (key, d) :: rest => do
    let name ← if room = 0 then .error .packedTooDeep else packScalar key
    let value ← packWithin room d
    return name ++ value ++ (← packEntries room rest)

end

def pack (d : Document) : Except Fault (List UInt8) := packWithin nestingLimit d

end BlockWorkbench.MessagePack
