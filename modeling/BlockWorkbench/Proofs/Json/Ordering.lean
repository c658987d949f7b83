import BlockWorkbench.Json.Convert
import BlockWorkbench.Proofs.Json.RoundTrip

/-!
The order of fields. Where each name stands once, a field is found in whatever order the fields
stand. A value whose fields are sorted as it is written is read again with its fields sorted.
-/

namespace BlockWorkbench.Json

/-! ### Fields in any order -/

section

variable {fields fields' : List (String × Json)}

theorem field?_eq_some_iff (h : (fields.map (·.1)).Nodup) {name : String} {v : Json} :
    field? fields name = some v ↔ (name, v) ∈ fields := by
  constructor
  · intro hfield
    obtain ⟨⟨n, w⟩, hfind, rfl⟩ := Option.map_eq_some_iff.mp hfield
    have hname : n = name := by simpa using List.find?_some hfind
    exact hname ▸ List.mem_of_find?_eq_some hfind
  · intro hmem
    cases hfind : fields.find? (·.1 == name) with
    | none =>
        have := List.find?_eq_none.mp hfind _ hmem
        simp at this
    | some f =>
        have hname : f.1 = name := by simpa using List.find?_some hfind
        have hf : f = (name, v) :=
          List.inj_on_of_nodup_map h (List.mem_of_find?_eq_some hfind) hmem hname
        simp [field?, hfind, hf]

/-- A field is found in any order of the fields. -/
theorem field?_perm (h : fields.Perm fields') (hnodup : (fields'.map (·.1)).Nodup)
    (name : String) : field? fields name = field? fields' name := by
  have hnodup' : (fields.map (·.1)).Nodup := (h.map _).nodup_iff.mpr hnodup
  ext v
  rw [field?_eq_some_iff hnodup', field?_eq_some_iff hnodup, h.mem_iff]

theorem dropField_perm (h : fields.Perm fields') (name : String) :
    (dropField fields name).Perm (dropField fields' name) :=
  h.filter _

theorem nodup_dropField (h : (fields.map (·.1)).Nodup) (name : String) :
    ((dropField fields name).map (·.1)).Nodup :=
  h.sublist (List.filter_sublist.map _)

end

/-! ### Fields as entries -/

/-- Fields as entries under text. -/
def textEntries (fields : List (String × Json)) : List (Scalar × Json) :=
  fields.map fun (n, v) => (.str n, v)

theorem asEntries_object (fields : List (String × Json)) :
    (object fields).asEntries = .ok (textEntries fields) := rfl

theorem popEntry_textEntries (fields : List (String × Json)) (name : String) :
    popEntry (textEntries fields) name =
      (field? fields name, textEntries (dropField fields name)) := by
  simp [popEntry, textEntries, field?, dropField, Scalar.same, Scalar.toJson, same,
    List.find?_map, List.filter_map, Function.comp_def, bne]

theorem asKeywords_textEntries (fields : List (String × Json)) :
    asKeywords (textEntries fields) = .ok fields := by
  induction fields with
  | nil => rfl
  | cons f rest ih =>
      rw [textEntries] at ih
      simp only [textEntries, List.map_cons, asKeywords, ih, ok_bind, pure_eq_ok]

/-! ### Sorted fields -/

theorem sortFields_perm (fields : List (String × Json)) : (sortFields fields).Perm fields :=
  List.mergeSort_perm fields _

theorem sortedItems_eq_map (vs : List Json) : sortedItems vs = vs.map sorted := by
  induction vs with
  | nil => rfl
  | cons v rest ih => rw [sortedItems, ih, List.map_cons]

theorem sortedFields_eq_map (fields : List (String × Json)) :
    sortedFields fields = fields.map fun f => (f.1, f.2.sorted) := by
  induction fields with
  | nil => rfl
  | cons f rest ih => rw [sortedFields, ih, List.map_cons]

/-- Sorting makes nothing unreadable. -/
theorem Readable.sorted {depth : Nat} {v : Json} (h : Readable depth v) :
    Readable depth v.sorted := by
  induction depth generalizing v with
  | zero =>
      cases v with
      | null | bool _ | int _ | float _ | str _ => exact h
      | list _ | object _ => exact h.elim
  | succ depth ih =>
      cases v with
      | null | bool _ | int _ | float _ | str _ => exact h
      | list items =>
          rw [Readable, readableItems_iff] at h
          rw [Json.sorted, Readable, readableItems_iff, sortedItems_eq_map]
          simpa using fun v hv => ih (h v hv)
      | object fields =>
          rw [Readable, readableFields_iff] at h
          rw [Json.sorted, Readable, readableFields_iff, sortedFields_eq_map]
          have hperm := sortFields_perm (fields.map fun f => (f.1, f.2.sorted))
          refine ⟨(hperm.map _).nodup_iff.mpr (by simpa [Function.comp_def] using h.1), ?_⟩
          intro f hf
          obtain ⟨f, hmem, rfl⟩ := List.mem_map.mp (hperm.mem_iff.mp hf)
          exact ih (h.2 f hmem)

/-- A value is read as it was written: as it is, or with its fields sorted. -/
theorem read_rendered {style : Style} (hs : style.Blank) {v : Json} (hv : Readable depthLimit v) :
    read (v.render style) = .ok (if style.sortKeys then v.sorted else v) := by
  cases hsort : style.sortKeys with
  | false => simpa using read_render hs hsort hv
  | true => simpa [render, hsort] using read_write hs hv.sorted

end BlockWorkbench.Json
