import BlockWorkbench.Json.Reader
import BlockWorkbench.Proofs.Outcome

/-!
The names in objects. Whatever a text holds, in what is read from it every object has each of its
names once, at every depth.
-/

namespace BlockWorkbench.Json

variable {τ : Type}

mutual

/-- Whether every object has each of its names once. -/
def Distinct : Json τ → Prop
  | .list items => DistinctItems items
  | .object fields => (fields.map (·.1)).Nodup ∧ DistinctFields fields
  | _ => True

def DistinctItems : List (Json τ) → Prop
  | [] => True
  | v :: rest => v.Distinct ∧ DistinctItems rest

def DistinctFields : List (τ × Json τ) → Prop
  | [] => True
  | (_, v) :: rest => v.Distinct ∧ DistinctFields rest

end

theorem distinctItems_iff {vs : List (Json τ)} : DistinctItems vs ↔ ∀ v ∈ vs, v.Distinct := by
  induction vs with
  | nil => simp [DistinctItems]
  | cons v rest ih => simp [DistinctItems, ih]

theorem distinctFields_iff {fields : List (τ × Json τ)} :
    DistinctFields fields ↔ ∀ f ∈ fields, f.2.Distinct := by
  induction fields with
  | nil => simp [DistinctFields]
  | cons f rest ih =>
      obtain ⟨n, v⟩ := f
      simp [DistinctFields, ih]

section Fields

variable [DecidableEq τ]

theorem mem_names_setField {fields : List (τ × Json τ)} {name m : τ} {v : Json τ} :
    m ∈ (setField fields name v).map (·.1) ↔ m = name ∨ m ∈ fields.map (·.1) := by
  induction fields with
  | nil => simp [setField]
  | cons f rest ih =>
      obtain ⟨n, w⟩ := f
      unfold setField
      split
      · simp_all
      · rw [List.map_cons, List.mem_cons, ih, List.map_cons, List.mem_cons]
        tauto

theorem nodup_setField {fields : List (τ × Json τ)} (h : (fields.map (·.1)).Nodup)
    (name : τ) (v : Json τ) : ((setField fields name v).map (·.1)).Nodup := by
  induction fields with
  | nil => simp [setField]
  | cons f rest ih =>
      obtain ⟨n, w⟩ := f
      simp only [List.map_cons, List.nodup_cons] at h
      unfold setField
      split
      · simpa using h
      · rename_i hne
        rw [List.map_cons, List.nodup_cons, mem_names_setField]
        exact ⟨not_or.mpr ⟨hne, h.1⟩, ih h.2⟩

theorem distinctFields_setField {fields : List (τ × Json τ)} (h : DistinctFields fields)
    (name : τ) {v : Json τ} (hv : v.Distinct) : DistinctFields (setField fields name v) := by
  induction fields with
  | nil => exact ⟨hv, trivial⟩
  | cons f rest ih =>
      obtain ⟨n, w⟩ := f
      unfold setField
      split
      · exact ⟨hv, h.2⟩
      · exact ⟨h.1, ih h.2⟩

end Fields

theorem readNumber_distinct {cs rest : List Char} {v : Json τ} (h : readNumber cs = .ok (v, rest)) :
    v.Distinct := by
  unfold readNumber at h
  split at h
  dsimp only at h
  split at h
  · cases h
  · split at h
    · cases h
      trivial
    · split at h
      · cases h
        trivial
      · split at h
        · cases h
        · cases h
          trivial

theorem readWord?_distinct {cs rest : List Char} {v : Json τ} (h : readWord? cs = some (v, rest)) :
    v.Distinct := by
  obtain ⟨⟨word, value⟩, hword, h⟩ := List.exists_of_findSome?_eq_some h
  simp only [Option.ite_none_right_eq_some, Option.some.injEq, Prod.mk.injEq] at h
  obtain ⟨-, rfl, -⟩ := h
  have hwords : ∀ w ∈ (words : List (List Char × Json τ)), w.2.Distinct := by simp [words, Distinct]
  exact hwords _ hword

/-- What the readers of values make with some fuel. -/
structure ReadersDistinct (τ : Type) [Spelled τ] [DecidableEq τ] (fuel : Nat) : Prop where
  value {depth : Nat} {cs rest : List Char} {v : Json τ} :
    readValue fuel depth cs = .ok (v, rest) → v.Distinct
  items {depth : Nat} {cs rest : List Char} {vs : List (Json τ)} :
    readItems fuel depth cs = .ok (vs, rest) → DistinctItems vs
  fields {depth : Nat} {cs rest : List Char} {before fs : List (τ × Json τ)} :
    readFields fuel depth before cs = .ok (fs, rest) →
      (before.map (·.1)).Nodup → DistinctFields before →
      (fs.map (·.1)).Nodup ∧ DistinctFields fs

namespace ReadersDistinct

variable [Spelled τ] [DecidableEq τ] {fuel : Nat}

theorem valueStep (ih : ReadersDistinct τ fuel) {depth : Nat} {cs rest : List Char} {v : Json τ}
    (h : readValue (fuel + 1) depth cs = .ok (v, rest)) : v.Distinct := by
  simp only [readValue] at h
  split at h
  · obtain ⟨⟨s, more⟩, -, hmap⟩ := map_eq_ok.mp h
    cases hmap
    trivial
  · split at h
    · cases h
    · split at h
      · cases h
        trivial
      · obtain ⟨⟨vs, more⟩, hread, hmap⟩ := map_eq_ok.mp h
        cases hmap
        exact ih.items hread
  · split at h
    · cases h
    · split at h
      · cases h
        exact ⟨List.nodup_nil, trivial⟩
      · obtain ⟨⟨fs, more⟩, hread, hmap⟩ := map_eq_ok.mp h
        cases hmap
        exact ih.fields hread List.nodup_nil trivial
  · split at h
    · rename_i hword
      cases h
      exact readWord?_distinct hword
    · exact readNumber_distinct h

theorem itemsStep (ih : ReadersDistinct τ fuel) {depth : Nat}
    {cs rest : List Char} {vs : List (Json τ)}
    (h : readItems (fuel + 1) depth cs = .ok (vs, rest)) : DistinctItems vs := by
  simp only [readItems, bind_eq_ok, Prod.exists] at h
  obtain ⟨v, more, hread, h⟩ := h
  split at h
  · cases h
    exact ⟨ih.value hread, trivial⟩
  · simp only [bind_eq_ok, Prod.exists] at h
    obtain ⟨vs', after, hitems, h⟩ := h
    cases h
    exact ⟨ih.value hread, ih.items hitems⟩
  · cases h

theorem fieldsStep (ih : ReadersDistinct τ fuel) {depth : Nat} {cs rest : List Char}
    {before fs : List (τ × Json τ)}
    (h : readFields (fuel + 1) depth before cs = .ok (fs, rest))
    (hnames : (before.map (·.1)).Nodup) (hbefore : DistinctFields before) :
    (fs.map (·.1)).Nodup ∧ DistinctFields fs := by
  simp only [readFields] at h
  split at h
  · simp only [bind_eq_ok, Prod.exists] at h
    obtain ⟨name, afterName, -, h⟩ := h
    split at h
    · simp only [bind_eq_ok, Prod.exists] at h
      obtain ⟨v, afterValue, hread, h⟩ := h
      have hnames' := nodup_setField hnames name v
      have hfields' := distinctFields_setField hbefore name (ih.value hread)
      split at h
      · cases h
        exact ⟨hnames', hfields'⟩
      · exact ih.fields h hnames' hfields'
      · cases h
    · cases h
  · cases h

end ReadersDistinct

variable [Spelled τ] [DecidableEq τ]

theorem readersDistinct (fuel : Nat) : ReadersDistinct τ fuel := by
  induction fuel with
  | zero => exact ⟨fun h => (nomatch h), fun h => (nomatch h), fun h => (nomatch h)⟩
  | succ fuel ih => exact ⟨ih.valueStep, ih.itemsStep, ih.fieldsStep⟩

/-- Every object that is read has each of its names once. -/
theorem read_distinct {text : String} {v : Json τ} (h : read text = .ok v) : v.Distinct := by
  unfold read readAll at h
  split at h
  · cases h
  · simp only [bind_eq_ok, Prod.exists] at h
    obtain ⟨v', rest, hread, h⟩ := h
    split at h
    · cases h
      exact (readersDistinct _).value hread
    · cases h

end BlockWorkbench.Json
