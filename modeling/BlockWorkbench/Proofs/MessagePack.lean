import BlockWorkbench.MessagePack
import BlockWorkbench.Proofs.Json.Strings

/-!
MessagePack read again. A reader of the forms in which documents are packed gives back the
document that was packed, whatever bytes follow it; and a document can be packed exactly if its
numbers have 64 bits, its sizes 32, its texts no half of a pair, and it is not nested too deeply.
-/

namespace BlockWorkbench.MessagePack

/-! ### Reading -/

/-- The number that bytes make, the most significant first. -/
def ofBigEndian (bytes : List UInt8) : Nat := bytes.foldl (fun n b => n * 0x100 + b.toNat) 0

/-- The natural number in the first `width` bytes. -/
def readNatural? (width : Nat) (bytes : List UInt8) : Option (Nat × List UInt8) :=
  if width ≤ bytes.length then some (ofBigEndian (bytes.take width), bytes.drop width) else none

/-- The integer whose two's complement is in the first `width` bytes. -/
def readInteger? (width : Nat) (bytes : List UInt8) : Option (Int × List UInt8) :=
  (readNatural? width bytes).map fun (n, rest) =>
    (if 2 * n < 0x100 ^ width then (n : Int) else n - 0x100 ^ width, rest)

/-- What the first bytes of a value say: the value, or the size of a list or of a dictionary. -/
inductive Head where
  | scalar (v : Scalar Points)
  | list (size : Nat)
  | dict (size : Nat)

def Head.int (n : Int) : Head := .scalar (.int n)

/-- The text in the first `size` bytes. -/
def readText? (size : Nat) (bytes : List UInt8) : Option (Head × List UInt8) :=
  if size ≤ bytes.length then
    (String.fromUTF8? ⟨(bytes.take size).toArray⟩).map fun s =>
      (.scalar (.str (.ofString s)), bytes.drop size)
  else none

/-- A head whose value or size is in its one byte, or in the bytes behind it. -/
def readHead? : List UInt8 → Option (Head × List UInt8)
  | [] => none
  | kind :: rest =>
    let n := kind.toNat
    if n < 0x80 then some (.int n, rest)
    else if n < 0x90 then some (.dict (n - 0x80), rest)
    else if n < 0xa0 then some (.list (n - 0x90), rest)
    else if n < 0xc0 then readText? (n - 0xa0) rest
    else if 0xe0 ≤ n then some (.int (n - 0x100), rest)
    else
      match n with
      | 0xc0 => some (.scalar .null, rest)
      | 0xc2 => some (.scalar (.bool false), rest)
      | 0xc3 => some (.scalar (.bool true), rest)
      | 0xcb => (readNatural? 8 rest).map fun (n, rest) =>
          (.scalar (.float (Float.ofBits n.toUInt64)), rest)
      | 0xcc => (readNatural? 1 rest).map fun (n, rest) => (.int n, rest)
      | 0xcd => (readNatural? 2 rest).map fun (n, rest) => (.int n, rest)
      | 0xce => (readNatural? 4 rest).map fun (n, rest) => (.int n, rest)
      | 0xcf => (readNatural? 8 rest).map fun (n, rest) => (.int n, rest)
      | 0xd0 => (readInteger? 1 rest).map fun (n, rest) => (.int n, rest)
      | 0xd1 => (readInteger? 2 rest).map fun (n, rest) => (.int n, rest)
      | 0xd2 => (readInteger? 4 rest).map fun (n, rest) => (.int n, rest)
      | 0xd3 => (readInteger? 8 rest).map fun (n, rest) => (.int n, rest)
      | 0xd9 => (readNatural? 1 rest).bind fun (size, rest) => readText? size rest
      | 0xda => (readNatural? 2 rest).bind fun (size, rest) => readText? size rest
      | 0xdb => (readNatural? 4 rest).bind fun (size, rest) => readText? size rest
      | 0xdc => (readNatural? 2 rest).map fun (size, rest) => (.list size, rest)
      | 0xdd => (readNatural? 4 rest).map fun (size, rest) => (.list size, rest)
      | 0xde => (readNatural? 2 rest).map fun (size, rest) => (.dict size, rest)
      | 0xdf => (readNatural? 4 rest).map fun (size, rest) => (.dict size, rest)
      | _ => none

/-- As many values as are counted, one after another. -/
def readMany {α : Type} (read : List UInt8 → Option (α × List UInt8)) :
    Nat → List UInt8 → Option (List α × List UInt8)
  | 0, bytes => some ([], bytes)
  | count + 1, bytes => do
    let (v, rest) ← read bytes
    let (vs, rest) ← readMany read count rest
    return (v :: vs, rest)

/-- A key and the value behind it. -/
def readEntry (read : List UInt8 → Option (Document × List UInt8)) (bytes : List UInt8) :
    Option ((Scalar Points × Document) × List UInt8) :=
  match readHead? bytes with
  | some (.scalar key, rest) => (read rest).map fun (d, rest) => ((key, d), rest)
  | _ => none

def ofScalar : Scalar Points → Document
  | .null => .null
  | .bool b => .bool b
  | .int n => .int n
  | .float x => .float x
  | .str s => .str s

/-- A document that may be `room` values deep, and what follows it. -/
def readWithin : Nat → List UInt8 → Option (Document × List UInt8)
  | 0, _ => none
  | room + 1, bytes =>
    match readHead? bytes with
    | some (.scalar v, rest) => some (ofScalar v, rest)
    | some (.list size, rest) =>
      (readMany (readWithin room) size rest).map fun (items, rest) => (.list items, rest)
    | some (.dict size, rest) =>
      (readMany (readEntry (readWithin room)) size rest).map fun (entries, rest) =>
        (.dict entries, rest)
    | none => none

/-- The document that all of the bytes make. -/
def unpack (bytes : List UInt8) : Option Document :=
  match readWithin nestingLimit bytes with
  | some (d, []) => some d
  | _ => none

/-! ### Heads -/

theorem ofBigEndian_append (bytes : List UInt8) (b : UInt8) :
    ofBigEndian (bytes ++ [b]) = ofBigEndian bytes * 0x100 + b.toNat := by
  simp [ofBigEndian]

theorem ofBigEndian_bigEndian (width n : Nat) :
    ofBigEndian (bigEndian width n) = n % 0x100 ^ width := by
  induction width generalizing n with
  | zero => simp [bigEndian, ofBigEndian, Nat.mod_one]
  | succ width ih =>
      rw [bigEndian, ofBigEndian_append, ih, Nat.pow_succ', Nat.mod_mul, UInt8.toNat_ofNat']
      omega

theorem readNatural?_bigEndian (width : Nat) {n : Nat} (h : n < 0x100 ^ width)
    (rest : List UInt8) :
    readNatural? width (bigEndian width n ++ rest) = some (n, rest) := by
  simp [readNatural?, ofBigEndian_bigEndian, Nat.mod_eq_of_lt h]

theorem readInteger?_bigEndian (width : Nat) {n : Nat} (hpos : 0 < n)
    (h : 2 * n ≤ 0x100 ^ width) (rest : List UInt8) :
    readInteger? width (bigEndian width (0x100 ^ width - n) ++ rest) = some (-(n : Int), rest) := by
  have hvalue : ((0x100 ^ width - n : Nat) : Int) - 0x100 ^ width = -n := by
    rw [Nat.cast_sub (by omega)]
    push_cast
    omega
  have hsign : ¬ 2 * (0x100 ^ width - n) < 0x100 ^ width := by omega
  simp [readInteger?, readNatural?_bigEndian width
    (show 0x100 ^ width - n < 0x100 ^ width by omega), hsign, hvalue]

theorem toList_loop (bytes : ByteArray) (start : Nat) (before : List UInt8) :
    ByteArray.toList.loop bytes start before = before.reverse ++ bytes.data.toList.drop start := by
  fun_induction ByteArray.toList.loop bytes start before with
  | case1 start before h ih =>
      have hdrop : bytes.data.toList.drop start =
          bytes.get! start :: bytes.data.toList.drop (start + 1) := by
        rw [List.drop_eq_getElem_cons h]
        simp [ByteArray.get!, getElem!_pos, h]
      rw [ih, hdrop, List.reverse_cons, List.append_assoc, List.singleton_append]
  | case2 start before h =>
      rw [List.drop_eq_nil_of_le (by simpa using h), List.append_nil]

theorem toList_eq (bytes : ByteArray) : bytes.toList = bytes.data.toList := by
  simp [ByteArray.toList, toList_loop]

/-- The bytes of a text stand for it. -/
theorem fromUTF8?_toList (s : String) :
    String.fromUTF8? ⟨s.toUTF8.toList.toArray⟩ = some s := by
  have hbytes : (⟨s.toUTF8.toList.toArray⟩ : ByteArray) = s.toUTF8 := by simp [toList_eq]
  rw [hbytes]
  exact dif_pos s.isValidUTF8

theorem readText?_toUTF8 (s : String) (rest : List UInt8) :
    readText? s.toUTF8.toList.length (s.toUTF8.toList ++ rest) =
      some (.scalar (.str (.ofString s)), rest) := by
  rw [readText?, if_pos (by simp), List.take_left, List.drop_left, fromUTF8?_toList,
    Option.map_some]

theorem readHead?_packNatural {n : Nat} {bytes : List UInt8} (h : packNatural n = .ok bytes)
    (rest : List UInt8) : readHead? (bytes ++ rest) = some (.int n, rest) := by
  unfold packNatural at h
  split_ifs at h with h7 h8 h16 h32 h64 <;> cases h
  · have hbyte : (UInt8.ofNat n).toNat = n := by simp; omega
    simp [readHead?, hbyte, h7]
  · simp [readHead?, readNatural?_bigEndian 1 h8]
  · simp [readHead?, readNatural?_bigEndian 2 h16]
  · simp [readHead?, readNatural?_bigEndian 4 h32]
  · simp [readHead?, readNatural?_bigEndian 8 h64]

theorem readHead?_packNegative {n : Nat} {bytes : List UInt8} (hpos : 0 < n)
    (h : packNegative n = .ok bytes) (rest : List UInt8) :
    readHead? (bytes ++ rest) = some (.int (-n), rest) := by
  unfold packNegative at h
  split_ifs at h with h5 h8 h16 h32 h64 <;> cases h
  · have hbyte : (UInt8.ofNat (0x100 - n)).toNat = 0x100 - n := by simp; omega
    have hvalue : ((0x100 - n : Nat) : Int) - 0x100 = -n := by omega
    simp only [List.cons_append, List.nil_append, readHead?, hbyte]
    split_ifs <;> first | omega | rw [hvalue]
  · have := readInteger?_bigEndian 1 hpos (by omega) rest
    simp_all [readHead?]
  · have := readInteger?_bigEndian 2 hpos (by omega) rest
    simp_all [readHead?]
  · have := readInteger?_bigEndian 4 hpos (by omega) rest
    simp_all [readHead?]
  · have := readInteger?_bigEndian 8 hpos (by omega) rest
    simp_all [readHead?]

theorem readHead?_packInt {n : Int} {bytes : List UInt8} (h : packInt n = .ok bytes)
    (rest : List UInt8) : readHead? (bytes ++ rest) = some (.int n, rest) := by
  unfold packInt at h
  split at h
  · rw [readHead?_packNatural h, Int.toNat_of_nonneg ‹0 ≤ n›]
  · rw [readHead?_packNegative (by omega) h, show -(n.natAbs : Int) = n by omega]

theorem readHead?_packFloat (x : Float) (rest : List UInt8) :
    readHead? (packFloat x ++ rest) = some (.scalar (.float x), rest) := by
  have hbits : readNatural? 8 (bigEndian 8 x.toBits.toNat ++ rest) = some (x.toBits.toNat, rest) :=
    readNatural?_bigEndian 8 x.toBits.toNat_lt rest
  simp [packFloat, readHead?, hbits]

theorem readHead?_stringHead {size : Nat} (h : size < sizeLimit) (rest : List UInt8) :
    readHead? (stringHead size ++ rest) = readText? size rest := by
  unfold stringHead
  split_ifs with h5 h8 h16
  · have hbyte : (UInt8.ofNat (0xa0 + size)).toNat = 0xa0 + size := by
      simp only [UInt8.toNat_ofNat']
      omega
    simp only [List.cons_append, List.nil_append, readHead?, hbyte]
    split_ifs <;> first | omega | rw [Nat.add_sub_cancel_left]
  · simp [readHead?, readNatural?_bigEndian 1 h8]
  · simp [readHead?, readNatural?_bigEndian 2 h16]
  · simp [readHead?, readNatural?_bigEndian 4 h]

theorem checkSize_eq_ok {what : String} {size : Nat} {u : Unit} :
    checkSize what size = .ok u ↔ size < sizeLimit := by
  simp [checkSize]

theorem packText_eq_ok {t : Points} {bytes : List UInt8} :
    packText t = .ok bytes ↔
      ∃ s, .ofString s = t ∧ s.toUTF8.size < sizeLimit ∧ packString s = bytes := by
  simp only [← Points.string?_eq_some]
  cases hs : t.string? <;> simp [packText, hs, bind_eq_ok, checkSize_eq_ok]

theorem readHead?_packText {t : Points} {bytes : List UInt8} (h : packText t = .ok bytes)
    (rest : List UInt8) : readHead? (bytes ++ rest) = some (.scalar (.str t), rest) := by
  obtain ⟨s, rfl, hlimit, rfl⟩ := packText_eq_ok.mp h
  have hsize : s.toUTF8.toList.length < sizeLimit := by rwa [toList_eq]
  rw [packString, List.append_assoc, readHead?_stringHead hsize, readText?_toUTF8]

theorem readHead?_packScalar {v : Scalar Points} {bytes : List UInt8} (h : packScalar v = .ok bytes)
    (rest : List UInt8) : readHead? (bytes ++ rest) = some (.scalar v, rest) := by
  cases v with
  | null => cases h; rfl
  | bool b => cases h; cases b <;> rfl
  | int n => exact readHead?_packInt h rest
  | float x => cases h; exact readHead?_packFloat x rest
  | str s => exact readHead?_packText h rest

theorem readHead?_listHead {size : Nat} (h : size < sizeLimit) (rest : List UInt8) :
    readHead? (listHead size ++ rest) = some (.list size, rest) := by
  unfold listHead
  split_ifs with h4 h16
  · have hbyte : (UInt8.ofNat (0x90 + size)).toNat = 0x90 + size := by
      simp only [UInt8.toNat_ofNat']
      omega
    simp only [List.cons_append, List.nil_append, readHead?, hbyte]
    split_ifs <;> first | omega | rw [Nat.add_sub_cancel_left]
  · simp [readHead?, readNatural?_bigEndian 2 h16]
  · simp [readHead?, readNatural?_bigEndian 4 h]

theorem readHead?_dictHead {size : Nat} (h : size < sizeLimit) (rest : List UInt8) :
    readHead? (dictHead size ++ rest) = some (.dict size, rest) := by
  unfold dictHead
  split_ifs with h4 h16
  · have hbyte : (UInt8.ofNat (0x80 + size)).toNat = 0x80 + size := by
      simp only [UInt8.toNat_ofNat']
      omega
    simp only [List.cons_append, List.nil_append, readHead?, hbyte]
    split_ifs <;> first | omega | rw [Nat.add_sub_cancel_left]
  · simp [readHead?, readNatural?_bigEndian 2 h16]
  · simp [readHead?, readNatural?_bigEndian 4 h]

/-! ### Documents -/

theorem packWithin_zero (d : Document) : packWithin 0 d = .error .packedTooDeep := by
  cases d <;> rfl

theorem packWithin_list_eq_ok {room : Nat} {items : List Document} {bytes : List UInt8} :
    packWithin (room + 1) (.list items) = .ok bytes ↔ items.length < sizeLimit ∧
      ∃ body, packItems room items = .ok body ∧ listHead items.length ++ body = bytes := by
  simp [packWithin, bind_eq_ok, checkSize_eq_ok]

theorem packWithin_dict_eq_ok {room : Nat} {entries : List (Scalar Points × Document)}
    {bytes : List UInt8} :
    packWithin (room + 1) (.dict entries) = .ok bytes ↔ entries.length < sizeLimit ∧
      ∃ body, packEntries room entries = .ok body ∧ dictHead entries.length ++ body = bytes := by
  simp [packWithin, bind_eq_ok, checkSize_eq_ok]

theorem packItems_cons_eq_ok {room : Nat} {d : Document} {items : List Document}
    {bytes : List UInt8} :
    packItems room (d :: items) = .ok bytes ↔ ∃ first, packWithin room d = .ok first ∧
      ∃ later, packItems room items = .ok later ∧ first ++ later = bytes := by
  simp [packItems, bind_eq_ok]

/-- An entry that has no room is refused at its key or at its value. -/
theorem packEntries_cons_eq_ok {room : Nat} {key : Scalar Points} {d : Document}
    {entries : List (Scalar Points × Document)} {bytes : List UInt8} :
    packEntries room ((key, d) :: entries) = .ok bytes ↔
      ∃ name, packScalar key = .ok name ∧ ∃ value, packWithin room d = .ok value ∧
        ∃ later, packEntries room entries = .ok later ∧ name ++ value ++ later = bytes := by
  cases room with
  | zero => simp [packEntries, packWithin_zero]
  | succ room => simp [packEntries, bind_eq_ok]

section Reading

variable {room : Nat}

/-- Items are read again if a document of their depth is. -/
theorem readMany_packItems
    (hread : ∀ d bytes rest, packWithin room d = .ok bytes →
      readWithin room (bytes ++ rest) = some (d, rest))
    {items : List Document} {bytes : List UInt8} (h : packItems room items = .ok bytes)
    (rest : List UInt8) :
    readMany (readWithin room) items.length (bytes ++ rest) = some (items, rest) := by
  induction items generalizing bytes with
  | nil =>
      cases h
      rfl
  | cons d items ih =>
      obtain ⟨first, hfirst, later, hlater, rfl⟩ := packItems_cons_eq_ok.mp h
      simp [readMany, hread d first _ hfirst, ih hlater]

theorem readMany_packEntries
    (hread : ∀ d bytes rest, packWithin room d = .ok bytes →
      readWithin room (bytes ++ rest) = some (d, rest))
    {entries : List (Scalar Points × Document)} {bytes : List UInt8}
    (h : packEntries room entries = .ok bytes) (rest : List UInt8) :
    readMany (readEntry (readWithin room)) entries.length (bytes ++ rest) =
      some (entries, rest) := by
  induction entries generalizing bytes with
  | nil =>
      cases h
      rfl
  | cons entry entries ih =>
      obtain ⟨key, d⟩ := entry
      obtain ⟨name, hname, value, hvalue, later, hlater, rfl⟩ := packEntries_cons_eq_ok.mp h
      simp [readMany, readEntry, readHead?_packScalar hname, hread d value _ hvalue, ih hlater]

/-- A packed document is read as itself, whatever follows it. -/
theorem readWithin_packWithin (d : Document) (bytes rest : List UInt8)
    (h : packWithin room d = .ok bytes) : readWithin room (bytes ++ rest) = some (d, rest) := by
  induction room generalizing d bytes rest with
  | zero => simp [packWithin_zero] at h
  | succ room ih =>
      have scalar (v : Scalar Points) (hv : packScalar v = .ok bytes) :
          readWithin (room + 1) (bytes ++ rest) = some (ofScalar v, rest) := by
        simp [readWithin, readHead?_packScalar hv]
      cases d with
      | null => exact scalar .null h
      | bool b => exact scalar (.bool b) h
      | int n => exact scalar (.int n) h
      | float x => exact scalar (.float x) h
      | str s => exact scalar (.str s) h
      | list items =>
          obtain ⟨hsize, body, hbody, rfl⟩ := packWithin_list_eq_ok.mp h
          simp [readWithin, readHead?_listHead hsize, readMany_packItems ih hbody]
      | dict entries =>
          obtain ⟨hsize, body, hbody, rfl⟩ := packWithin_dict_eq_ok.mp h
          simp [readWithin, readHead?_dictHead hsize, readMany_packEntries ih hbody]

end Reading

/-- Every document that can be packed is what its bytes say. -/
theorem unpack_pack {d : Document} {bytes : List UInt8} (h : pack d = .ok bytes) :
    unpack bytes = some d := by
  have hread := readWithin_packWithin d bytes [] h
  rw [List.append_nil] at hread
  simp [unpack, hread]

end BlockWorkbench.MessagePack

namespace BlockWorkbench

open MessagePack

/-- Scalars that MessagePack has a form for: integers of 64 bits, with a sign or without, and
texts of fewer than `2 ^ 32` bytes that hold no half of a pair. -/
def Scalar.Packable : Scalar Points → Prop
  | .int n => -0x8000000000000000 ≤ n ∧ n < 0x10000000000000000
  | .str t => t.Whole ∧ t.toString.toUTF8.size < sizeLimit
  | .null | .bool _ | .float _ => True

instance (v : Scalar Points) : Decidable v.Packable :=
  match v with
  | .int n => inferInstanceAs (Decidable (-0x8000000000000000 ≤ n ∧ n < 0x10000000000000000))
  | .str t => inferInstanceAs (Decidable (t.Whole ∧ t.toString.toUTF8.size < sizeLimit))
  | .null | .bool _ | .float _ => .isTrue trivial

/-- Documents that MessagePack has a form for and that are at most `room` values deep. -/
def Document.Packable : Nat → Document → Prop
  | 0, _ => False
  | _ + 1, .null | _ + 1, .bool _ | _ + 1, .float _ => True
  | _ + 1, .int n => Scalar.Packable (.int n)
  | _ + 1, .str s => Scalar.Packable (.str s)
  | room + 1, .list items => items.length < sizeLimit ∧ ∀ d ∈ items, d.Packable room
  | room + 1, .dict entries =>
    entries.length < sizeLimit ∧ ∀ e ∈ entries, e.1.Packable ∧ e.2.Packable room

namespace MessagePack

theorem packInt_iff {n : Int} : (∃ bytes, packInt n = .ok bytes) ↔ Scalar.Packable (.int n) := by
  simp only [packInt, packNatural, packNegative, Scalar.Packable]
  split_ifs <;> simp only [Except.ok.injEq, exists_eq', exists_false, true_iff,
    false_iff] <;> omega

theorem packText_iff {t : Points} :
    (∃ bytes, packText t = .ok bytes) ↔ Scalar.Packable (.str t) := by
  simp only [packText_eq_ok, Scalar.Packable]
  constructor
  · rintro ⟨-, s, rfl, hlimit, -⟩
    exact ⟨Points.whole_ofString s, by rwa [Points.toString_ofString]⟩
  · rintro ⟨hwhole, hlimit⟩
    obtain ⟨s, rfl⟩ := hwhole.exists_ofString
    rw [Points.toString_ofString] at hlimit
    exact ⟨_, s, rfl, hlimit, rfl⟩

theorem packable_ofString {s : String} :
    Scalar.Packable (.str (.ofString s)) ↔ s.toUTF8.size < sizeLimit := by
  rw [Scalar.Packable, Points.toString_ofString, and_iff_right (Points.whole_ofString s)]

theorem packScalar_iff {v : Scalar Points} : (∃ bytes, packScalar v = .ok bytes) ↔ v.Packable := by
  cases v with
  | null | bool b | float x => simp [packScalar, Scalar.Packable]
  | int n => exact packInt_iff
  | str t => exact packText_iff

theorem packItems_iff {room : Nat} {items : List Document} :
    (∃ bytes, packItems room items = .ok bytes) ↔
      ∀ d ∈ items, ∃ bytes, packWithin room d = .ok bytes := by
  induction items with
  | nil => simp [packItems]
  | cons d items ih =>
      rw [List.forall_mem_cons, ← ih]
      simp only [packItems_cons_eq_ok]
      constructor
      · rintro ⟨bytes, first, hfirst, later, hlater, -⟩
        exact ⟨⟨first, hfirst⟩, later, hlater⟩
      · rintro ⟨⟨first, hfirst⟩, later, hlater⟩
        exact ⟨_, first, hfirst, later, hlater, rfl⟩

theorem packEntries_iff {room : Nat} {entries : List (Scalar Points × Document)} :
    (∃ bytes, packEntries room entries = .ok bytes) ↔
      ∀ e ∈ entries, e.1.Packable ∧ ∃ bytes, packWithin room e.2 = .ok bytes := by
  induction entries with
  | nil => simp [packEntries]
  | cons e entries ih =>
      obtain ⟨key, d⟩ := e
      rw [List.forall_mem_cons, ← ih, ← packScalar_iff]
      simp only [packEntries_cons_eq_ok]
      constructor
      · rintro ⟨bytes, name, hname, value, hvalue, later, hlater, -⟩
        exact ⟨⟨⟨name, hname⟩, value, hvalue⟩, later, hlater⟩
      · rintro ⟨⟨⟨name, hname⟩, value, hvalue⟩, later, hlater⟩
        exact ⟨_, name, hname, value, hvalue, later, hlater, rfl⟩

theorem packWithin_iff {room : Nat} {d : Document} :
    (∃ bytes, packWithin room d = .ok bytes) ↔ d.Packable room := by
  induction room generalizing d with
  | zero => simp [packWithin_zero, Document.Packable]
  | succ room ih =>
      cases d with
      | null | bool b | float x => simp [packWithin, Document.Packable]
      | int n => exact packInt_iff
      | str s => exact packScalar_iff (v := .str s)
      | list items =>
          simp only [packWithin_list_eq_ok, Document.Packable, ← ih, ← packItems_iff]
          simp
      | dict entries =>
          simp only [packWithin_dict_eq_ok, Document.Packable, ← ih, ← packEntries_iff]
          simp

/-- What can be packed. -/
theorem pack_iff {d : Document} :
    (∃ bytes, pack d = .ok bytes) ↔ d.Packable nestingLimit := packWithin_iff

end MessagePack

end BlockWorkbench
