import BlockWorkbench.Proofs.Script.Reserved

/-!
Values that give no way to the dictionary of the predefined names. A store is sealed if that
dictionary is as it is at the start and nothing that is kept in the store leads to it. What is found
in a sealed store, or made of sealed values, is sealed again.
-/

namespace BlockWorkbench.Script

/-! ### Values -/

mutual

/-- Whether a value is not the dictionary of the predefined names, and no part of it is. -/
def Value.Sealed : Value → Prop
  | .dict a => a ≠ 0
  | .tuple items => AllSealed items
  | .method _ receiver => receiver.Sealed
  | .none | .bool _ | .int _ | .float _ | .str _ | .range .. | .list _ | .function _ | .builtin _
  | .errorClass _ | .error _ => True

def AllSealed : List Value → Prop
  | [] => True
  | v :: rest => v.Sealed ∧ AllSealed rest

end

theorem allSealed_iff {vs : List Value} : AllSealed vs ↔ ∀ v ∈ vs, v.Sealed := by
  induction vs with
  | nil => simp [AllSealed]
  | cons v rest ih => simp [AllSealed, ih]

theorem sealed_tuple {items : List Value} : (Value.tuple items).Sealed ↔ ∀ v ∈ items, v.Sealed :=
  allSealed_iff

/-- Whether predefined names may be found in a value: it is their dictionary, or sealed. -/
def Value.Serves (v : Value) : Prop := v = .predefinedDict ∨ v.Sealed

def SealedEntries (entries : List (Value × Value)) : Prop :=
  ∀ e ∈ entries, e.1.Sealed ∧ e.2.Sealed

theorem sealed_ofNumber (n : Number) : (Value.ofNumber n).Sealed := by
  cases n <;> trivial

theorem sealed_of_asKey {v key : Value} (hv : v.Sealed) (h : v.asKey = .ok key) : key.Sealed := by
  unfold Value.asKey at h
  split at h <;> cases h
  exact hv

theorem SealedEntries.valueAt? {entries : List (Value × Value)} (h : SealedEntries entries)
    {key v : Value} (hv : valueAt? entries key = some v) : v.Sealed := by
  obtain ⟨e, he, rfl⟩ := Option.map_eq_some_iff.mp hv
  exact (h e (List.mem_of_find?_eq_some he)).2

theorem SealedEntries.setEntry {entries : List (Value × Value)} (h : SealedEntries entries)
    {key v : Value} (hkey : key.Sealed) (hv : v.Sealed) :
    SealedEntries (setEntry entries key v) := by
  induction entries with
  | nil => simpa [SealedEntries, Script.setEntry] using And.intro hkey hv
  | cons e rest ih =>
      obtain ⟨hfirst, hrest⟩ := List.forall_mem_cons.mp h
      simp only [Script.setEntry]
      split
      · exact List.forall_mem_cons.mpr ⟨⟨hfirst.1, hv⟩, hrest⟩
      · exact List.forall_mem_cons.mpr ⟨hfirst, ih hrest⟩

/-! ### Stores -/

section Arrays

variable {α : Type} {P : α → Prop} {xs : Array α} {x d : α}

theorem forall_getD_push (h : ∀ i, P (xs.getD i d)) (hx : P x) (i : Nat) :
    P ((xs.push x).getD i d) := by
  have hi := h i
  rw [Array.getD_eq_getD_getElem?] at hi ⊢
  rw [Array.getElem?_push]
  split
  · exact hx
  · exact hi

theorem forall_getD_modify (h : ∀ i, P (xs.getD i d)) {f : α → α} (hf : ∀ x, P x → P (f x))
    (j i : Nat) : P ((xs.modify j f).getD i d) := by
  have hi := h i
  rw [Array.getD_eq_getD_getElem?] at hi ⊢
  rw [Array.getElem?_modify]
  split
  · cases hx : xs[i]? with
    | none => simpa [hx] using hi
    | some x => simpa [hx] using hf x (by simpa [hx] using hi)
  · exact hi

theorem forall_getD_setIfInBounds (h : ∀ i, P (xs.getD i d)) (hx : P x) (j i : Nat) :
    P ((xs.setIfInBounds j x).getD i d) := by
  have hi := h i
  rw [Array.getD_eq_getD_getElem?] at hi ⊢
  rw [Array.getElem?_setIfInBounds]
  split
  · split
    · exact hx
    · rename_i hj hsize
      simpa [Array.getElem?_eq_none (Nat.le_of_not_lt (hj ▸ hsize))] using hi
  · exact hi

end Arrays

structure FunctionObject.Sealed (f : FunctionObject) : Prop where
  defaults : ∀ v ∈ f.defaults, v.Sealed
  body : ∀ stmt ∈ f.body, stmt.Unreserved
  names : f.names.Serves

structure Frame.Sealed (f : Frame) : Prop where
  bindings : ∀ name v, bound? f.bindings name = some v → v.Sealed
  names : f.names.Serves

namespace Store

/-- The dictionary of the predefined names is as it is at the start. -/
def Intact (s : Store) : Prop := s.entries 0 = ({} : Store).entries 0

theorem Intact.size_pos {s : Store} (h : s.Intact) : 0 < s.dicts.size := by
  by_contra hsize
  have hnone : s.entries 0 = [] := by
    simp [entries, Array.getD_eq_getD_getElem?, Array.getElem?_eq_none (Nat.le_of_not_lt hsize)]
  rw [Intact, hnone] at h
  cases h

/-- Nothing in the store leads to the dictionary of the predefined names, which is as it is at the
start. Scripts cannot look into errors, so these may hold anything. -/
structure Sealed (s : Store) : Prop where
  intact : s.Intact
  lists : ∀ a, ∀ v ∈ s.items a, v.Sealed
  dicts : ∀ a, SealedEntries (s.entries a)
  functions : ∀ a, (s.function a).Sealed
  frames : ∀ a, (s.frame a).Sealed

theorem sealed_default : ({} : Store).Sealed where
  intact := rfl
  lists a := by simp [items]
  dicts a := by
    have hpredefined : SealedEntries (({} : Store).entries 0) := by
      intro e he
      obtain ⟨⟨name, v⟩, hmem, rfl⟩ := List.mem_map.mp he
      refine ⟨trivial, ?_⟩
      simp only [predefined, List.mem_append, List.mem_map, Prod.mk.injEq] at hmem
      obtain ⟨_, _, _, rfl⟩ | ⟨_, _, _, rfl⟩ := hmem <;> trivial
    cases a with
    | zero => exact hpredefined
    | succ a =>
        have hnone : ({} : Store).entries (a + 1) = [] := rfl
        simp [hnone, SealedEntries]
  functions a := by
    have hnone : ({} : Store).function a = default := by simp [function]
    rw [hnone]
    exact ⟨nofun, nofun, .inr trivial⟩
  frames a := by
    have hnone : ({} : Store).frame a = default := by simp [frame]
    rw [hnone]
    exact ⟨nofun, .inr trivial⟩

namespace Sealed

variable {s : Store} (h : s.Sealed)

include h

theorem addList {items : Array Value} (hitems : ∀ v ∈ items, v.Sealed) :
    (s.addList items).2.Sealed where
  intact := h.intact
  lists := forall_getD_push (P := fun items : Array Value => ∀ v ∈ items, v.Sealed) h.lists hitems
  dicts := h.dicts
  functions := h.functions
  frames := h.frames

theorem addDict {entries : List (Value × Value)} (hentries : SealedEntries entries) :
    (s.addDict entries).1.Sealed ∧ (s.addDict entries).2.Sealed := by
  refine ⟨Nat.ne_of_gt h.intact.size_pos, ?_, h.lists, forall_getD_push h.dicts hentries,
    h.functions, h.frames⟩
  have hkept : (s.addDict entries).2.entries 0 = s.entries 0 := by
    simp only [Store.entries, Store.addDict, Array.getD_eq_getD_getElem?, Array.getElem?_push,
      if_neg (Nat.ne_of_lt h.intact.size_pos)]
  exact hkept.trans h.intact

theorem addFunction {f : FunctionObject} (hf : f.Sealed) : (s.addFunction f).2.Sealed where
  intact := h.intact
  lists := h.lists
  dicts := h.dicts
  functions := forall_getD_push h.functions hf
  frames := h.frames

theorem addFrame {f : Frame} (hf : f.Sealed) : (s.addFrame f).2.Sealed where
  intact := h.intact
  lists := h.lists
  dicts := h.dicts
  functions := h.functions
  frames := forall_getD_push h.frames hf

theorem addError (e : ErrorObject) : (s.addError e).2.Sealed where
  intact := h.intact
  lists := h.lists
  dicts := h.dicts
  functions := h.functions
  frames := h.frames

theorem setError (a : Address) (e : ErrorObject) : (s.setError a e).Sealed where
  intact := h.intact
  lists := h.lists
  dicts := h.dicts
  functions := h.functions
  frames := h.frames

theorem modifyList (a : Address) {change : Array Value → Array Value}
    (hchange : ∀ items, (∀ v ∈ items, v.Sealed) → ∀ v ∈ change items, v.Sealed) :
    (s.modifyList a change).Sealed where
  intact := h.intact
  lists := forall_getD_modify h.lists hchange a
  dicts := h.dicts
  functions := h.functions
  frames := h.frames

theorem setEntries {a : Address} (ha : a ≠ 0) {entries : List (Value × Value)}
    (hentries : SealedEntries entries) : (s.setEntries a entries).Sealed where
  intact := by
    have hkept : (s.setEntries a entries).entries 0 = s.entries 0 := by
      simp only [Store.entries, Store.setEntries, Array.getD_eq_getD_getElem?,
        Array.getElem?_setIfInBounds_ne ha]
    exact hkept.trans h.intact
  lists := h.lists
  dicts := forall_getD_setIfInBounds h.dicts hentries a
  functions := h.functions
  frames := h.frames

end Sealed

end Store

end BlockWorkbench.Script
