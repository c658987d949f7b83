import Mathlib
import BlockWorkbench.Proofs.Outcome
import BlockWorkbench.Script.Sending

/-!
JSON values in a store. A value holds data if it is the data or the address of its parts; making
data into a value gives one that holds it, and it goes on holding it while the store only grows.
-/

namespace BlockWorkbench.Script

theorem integerText_eq_ok {n : Int} (h : n.natAbs < 10 ^ Number.digitLimit) :
    integerText n = .ok (toString n) :=
  if_neg (Nat.not_le.mpr h)

theorem integerText_digit {n : Int} (h : n.natAbs < 10) : integerText n = .ok (toString n) :=
  integerText_eq_ok (h.trans_le (Nat.le_self_pow (by decide) 10))

namespace Store

/-- Whether `t` has all lists and dicts of `s`, with the same contents. -/
structure Extends (s t : Store) : Prop where
  lists : ∀ (a : Address) items, s.lists[a]? = some items → t.lists[a]? = some items
  dicts : ∀ (a : Address) entries, s.dicts[a]? = some entries → t.dicts[a]? = some entries

variable {s t u : Store}

theorem Extends.refl (s : Store) : s.Extends s := ⟨fun _ _ h => h, fun _ _ h => h⟩

theorem Extends.trans (h : s.Extends t) (h' : t.Extends u) : s.Extends u :=
  ⟨fun a x hx => h'.lists a x (h.lists a x hx), fun a x hx => h'.dicts a x (h.dicts a x hx)⟩

theorem getElem?_push_of_some {α : Type} {xs : Array α} {i : Nat} {x : α} (h : xs[i]? = some x)
    (y : α) : (xs.push y)[i]? = some x := by
  obtain ⟨hi, -⟩ := Array.getElem?_eq_some_iff.mp h
  rw [Array.getElem?_push_lt hi]
  exact (Array.getElem?_eq_getElem hi).symm.trans h

theorem extends_addList (s : Store) (items : Array Value) : s.Extends (s.addList items).2 :=
  ⟨fun _ _ h => getElem?_push_of_some h items, fun _ _ h => h⟩

theorem extends_addDict (s : Store) (entries : List (Value × Value)) :
    s.Extends (s.addDict entries).2 :=
  ⟨fun _ _ h => h, fun _ _ h => getElem?_push_of_some h entries⟩

mutual

/-- Whether a value is the data `v`, its lists and objects being those at their addresses. -/
def Holds (s : Store) : Json Points → Value → Prop
  | .null, x => x = .none
  | .bool b, x => x = .bool b
  | .int n, x => x = .int n
  | .float f, x => x = .float f
  | .str t, x => x = .str t
  | .list items, x =>
    ∃ a values, x = .list a ∧ s.lists[a]? = some values ∧ HoldsItems s items values.toList
  | .object fields, x =>
    ∃ a entries, x = .dict a ∧ s.dicts[a]? = some entries ∧ HoldsFields s fields entries

def HoldsItems (s : Store) : List (Json Points) → List Value → Prop
  | [], values => values = []
  | v :: rest, values => ∃ x xs, values = x :: xs ∧ Holds s v x ∧ HoldsItems s rest xs

def HoldsFields (s : Store) : List (Points × Json Points) → List (Value × Value) → Prop
  | [], entries => entries = []
  | (n, v) :: rest, entries =>
    ∃ x xs, entries = (.str n, x) :: xs ∧ Holds s v x ∧ HoldsFields s rest xs

end

mutual

theorem Holds.mono (h : s.Extends t) : ∀ {v : Json Points} {x : Value}, s.Holds v x → t.Holds v x
  | .null, _, hx | .bool _, _, hx | .int _, _, hx | .float _, _, hx | .str _, _, hx => hx
  | .list _, _, ⟨a, values, hx, ha, hitems⟩ => ⟨a, values, hx, h.lists _ _ ha, hitems.mono h⟩
  | .object _, _, ⟨a, entries, hx, ha, hfields⟩ => ⟨a, entries, hx, h.dicts _ _ ha, hfields.mono h⟩

theorem HoldsItems.mono (h : s.Extends t) :
    ∀ {items : List (Json Points)} {values : List Value},
      s.HoldsItems items values → t.HoldsItems items values
  | [], _, hvalues => hvalues
  | _ :: _, _, ⟨x, xs, hvalues, hx, hxs⟩ => ⟨x, xs, hvalues, hx.mono h, hxs.mono h⟩

theorem HoldsFields.mono (h : s.Extends t) :
    ∀ {fields : List (Points × Json Points)} {entries : List (Value × Value)},
      s.HoldsFields fields entries → t.HoldsFields fields entries
  | [], _, hentries => hentries
  | (_, _) :: _, _, ⟨x, xs, hentries, hx, hxs⟩ => ⟨x, xs, hentries, hx.mono h, hxs.mono h⟩

end

mutual

/-- Data that is made into a value is held by it, in a store that has grown. -/
theorem ofJson_spec (s : Store) (v : Json Points) :
    s.Extends (s.ofJson v).2 ∧ (s.ofJson v).2.Holds v (s.ofJson v).1 := by
  cases v with
  | null | bool _ | int _ | float _ | str _ => exact ⟨.refl s, rfl⟩
  | list items =>
      obtain ⟨hgrown, hitems⟩ := ofJsonItems_spec s items
      have hadded := extends_addList (s.ofJsonItems items).2 (s.ofJsonItems items).1.toArray
      exact ⟨hgrown.trans hadded, _, (s.ofJsonItems items).1.toArray, rfl,
        by simp [ofJson, addList], hitems.mono hadded⟩
  | object fields =>
      obtain ⟨hgrown, hfields⟩ := ofJsonFields_spec s fields
      have hadded := extends_addDict (s.ofJsonFields fields).2 (s.ofJsonFields fields).1
      exact ⟨hgrown.trans hadded, _, (s.ofJsonFields fields).1, rfl,
        by simp [ofJson, addDict], hfields.mono hadded⟩

theorem ofJsonItems_spec (s : Store) (items : List (Json Points)) :
    s.Extends (s.ofJsonItems items).2 ∧
      (s.ofJsonItems items).2.HoldsItems items (s.ofJsonItems items).1 := by
  cases items with
  | nil => exact ⟨.refl s, rfl⟩
  | cons v rest =>
      obtain ⟨hfirst, hvalue⟩ := ofJson_spec s v
      obtain ⟨hlater, hvalues⟩ := ofJsonItems_spec (s.ofJson v).2 rest
      exact ⟨hfirst.trans hlater, _, _, rfl, hvalue.mono hlater, hvalues⟩

theorem ofJsonFields_spec (s : Store) (fields : List (Points × Json Points)) :
    s.Extends (s.ofJsonFields fields).2 ∧
      (s.ofJsonFields fields).2.HoldsFields fields (s.ofJsonFields fields).1 := by
  cases fields with
  | nil => exact ⟨.refl s, rfl⟩
  | cons field rest =>
      obtain ⟨n, v⟩ := field
      obtain ⟨hfirst, hvalue⟩ := ofJson_spec s v
      obtain ⟨hlater, hvalues⟩ := ofJsonFields_spec (s.ofJson v).2 rest
      exact ⟨hfirst.trans hlater, _, _, rfl, hvalue.mono hlater, hvalues⟩

end

/-- An integer that is not too long is sent as it is. -/
theorem documentWithin_int (s : Store) (other : Value → Except RuntimeFault Document)
    (depth : Nat) (lists dicts : List Address) {n : Int}
    (h : n.natAbs < 10 ^ Number.digitLimit) :
    s.documentWithin other (depth + 1) lists dicts (.int n) = .ok (.int n) := by
  have hdocument : s.documentWithin other (depth + 1) lists dicts (.int n) =
      (integerText n).bind fun _ => .ok (.int n) := rfl
  rw [hdocument, integerText_eq_ok h]
  rfl

theorem document_int (s : Store) {n : Int} (h : n.natAbs < 10 ^ Number.digitLimit) :
    s.document (.int n) = .ok (.int n) :=
  s.documentWithin_int s.refuse _ [] [] h

theorem send_int (s : Store) {n : Int} (h : n.natAbs < 10 ^ Number.digitLimit) :
    s.send (.int n) = .ok (.int n) := by
  rw [send, document_int s h]
  rfl

/-! ### What is made of the parts -/

theorem eachDocument_eq_ok {α β : Type} {make : α → Except RuntimeFault β} {vs : List α}
    {ds : List β} : eachDocument make vs = .ok ds ↔ List.Forall₂ (make · = .ok ·) vs ds := by
  induction vs generalizing ds with
  | nil => cases ds <;> simp [eachDocument]
  | cons v rest ih =>
      simp only [eachDocument, bind_eq_ok, ih]
      cases ds <;> simp [pure, Except.pure]

/-- An entry of a dictionary as it is sent. -/
def documentEntry (s : Store) (make : Value → Except RuntimeFault Document) :
    Value × Value → Except RuntimeFault (Scalar Points × Document)
  | (k, v) => do
    match k.toScalar? with
    | some key => return (key, ← make v)
    | none => throw (.badFieldName (s.typeName k))

section Parts

variable {other : Value → Except RuntimeFault Document} {depth : Nat} {lists dicts : List Address}
  {d : Document}

theorem documentWithin_tuple_eq_ok {items : List Value} :
    s.documentWithin other (depth + 1) lists dicts (.tuple items) = .ok d ↔ ∃ ds,
      List.Forall₂ (s.documentWithin other depth lists dicts · = .ok ·) items ds ∧
        d = .list ds := by
  simp only [← eachDocument_eq_ok]
  exact bind_eq_ok.trans (by simp [eq_comm])

theorem documentWithin_list_eq_ok {a : Address} :
    s.documentWithin other (depth + 1) lists dicts (.list a) = .ok d ↔ a ∉ lists ∧ ∃ ds,
      List.Forall₂ (s.documentWithin other depth (a :: lists) dicts · = .ok ·)
        (s.items a).toList ds ∧ d = .list ds := by
  simp only [← eachDocument_eq_ok]
  by_cases hin : a ∈ lists
  · simp [documentWithin, hin]
  · have hnew : ¬ lists.contains a = true := by simpa using hin
    rw [documentWithin, if_neg hnew]
    exact bind_eq_ok.trans (by simp [hin, eq_comm])

theorem documentWithin_dict_eq_ok {a : Address} :
    s.documentWithin other (depth + 1) lists dicts (.dict a) = .ok d ↔ a ∉ dicts ∧ ∃ ds,
      List.Forall₂ (s.documentEntry (s.documentWithin other depth lists (a :: dicts)) · = .ok ·)
        (s.entries a) ds ∧ d = .dict ds := by
  simp only [← eachDocument_eq_ok]
  by_cases hin : a ∈ dicts
  · simp [documentWithin, hin]
  · have hnew : ¬ dicts.contains a = true := by simpa using hin
    rw [documentWithin, if_neg hnew]
    exact bind_eq_ok.trans (by simp [hin, eq_comm]; rfl)

theorem documentEntry_eq_ok {make : Value → Except RuntimeFault Document} {k v : Value}
    {entry : Scalar Points × Document} : s.documentEntry make (k, v) = .ok entry ↔
      k.toScalar? = some entry.1 ∧ make v = .ok entry.2 := by
  obtain ⟨key, d⟩ := entry
  rw [documentEntry]
  cases k.toScalar? with
  | none => simp
  | some key' => simp [bind_eq_ok, and_comm]

end Parts

/-- What can be sent is the same document, whatever would stand in for what cannot. -/
theorem documentWithin_of_refuse (other : Value → Except RuntimeFault Document) {depth : Nat}
    {lists dicts : List Address} {v : Value} {d : Document}
    (h : s.documentWithin s.refuse depth lists dicts v = .ok d) :
    s.documentWithin other depth lists dicts v = .ok d := by
  induction depth generalizing lists dicts v d with
  | zero => exact nomatch h
  | succ depth ih =>
      cases v with
      | none | bool _ | int _ | float _ | str _ => exact h
      | tuple items =>
          obtain ⟨ds, hds, rfl⟩ := documentWithin_tuple_eq_ok.mp h
          exact documentWithin_tuple_eq_ok.mpr ⟨ds, hds.imp fun _ _ => ih, rfl⟩
      | list a =>
          obtain ⟨hnew, ds, hds, rfl⟩ := documentWithin_list_eq_ok.mp h
          exact documentWithin_list_eq_ok.mpr ⟨hnew, ds, hds.imp fun _ _ => ih, rfl⟩
      | dict a =>
          obtain ⟨hnew, ds, hds, rfl⟩ := documentWithin_dict_eq_ok.mp h
          refine documentWithin_dict_eq_ok.mpr ⟨hnew, ds, hds.imp fun entry _ hentry => ?_, rfl⟩
          obtain ⟨hkey, hvalue⟩ := documentEntry_eq_ok.mp hentry
          exact documentEntry_eq_ok.mpr ⟨hkey, ih hvalue⟩
      | _ => exact nomatch h

/-- What can be sent is looked at as it is sent. -/
theorem quotingDocument_of_document {v : Value} {d : Document} (h : s.document v = .ok d) :
    s.quotingDocument v = .ok d :=
  documentWithin_of_refuse s.quote h

end Store

end BlockWorkbench.Script
