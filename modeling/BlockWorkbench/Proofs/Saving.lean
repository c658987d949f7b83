import BlockWorkbench.Proofs.FreshIds
import BlockWorkbench.Proofs.Json.Ordering

/-!
Graphs saved and loaded again. A graph whose ids are integers and whose modules hold text is loaded
from its text as it was, whatever the layout of the text; only the id that comes next may be another.
-/

namespace BlockWorkbench

namespace Module

/-! ### Definitions with their fields in any order -/

theorem checkArguments_eq_ok {callee : String} {known : List String}
    {args : List (String × Json)} :
    checkArguments callee known args = .ok () ↔ ∀ f ∈ args, f.1 ≠ "self" ∧ f.1 ∈ known := by
  induction args with
  | nil => simp [checkArguments]
  | cons f rest ih =>
      obtain ⟨n, v⟩ := f
      rw [checkArguments, List.forall_mem_cons, ← ih]
      split
      · simp_all
      · split <;> simp_all

section

variable {fields fields' : List (String × Json)} {m : Module}

theorem checkArguments_perm (h : fields.Perm fields') {callee : String} {known : List String}
    (hok : checkArguments callee known fields' = .ok ()) :
    checkArguments callee known fields = .ok () :=
  checkArguments_eq_ok.mpr fun f hf => checkArguments_eq_ok.mp hok f (h.mem_iff.mp hf)

theorem buildMap_perm (h : fields.Perm fields') (hnodup : (fields'.map (·.1)).Nodup)
    (hok : buildMap fields' = .ok m) : buildMap fields = .ok m := by
  obtain ⟨⟨⟩, hcheck, hok⟩ := bind_eq_ok.mp hok
  simp only [buildMap, checkArguments_perm h hcheck, ok_bind, Json.field?_perm h hnodup]
  exact hok

theorem buildStore_perm (h : fields.Perm fields') (hnodup : (fields'.map (·.1)).Nodup)
    (hok : buildStore fields' = .ok m) : buildStore fields = .ok m := by
  obtain ⟨⟨⟩, hcheck, hok⟩ := bind_eq_ok.mp hok
  simp only [buildStore, checkArguments_perm h hcheck, ok_bind, Json.field?_perm h hnodup]
  exact hok

/-- The module that fields describe. -/
theorem ofEntries_textEntries (fields : List (String × Json)) :
    ofEntries (Json.textEntries fields) =
      match Json.field? fields "kind" with
      | none => .error (.missingKey (.str "kind"))
      | some (.str "map") => buildMap (Json.dropField fields "kind")
      | some (.str "store") => buildStore (Json.dropField fields "kind")
      | some kind => .error (.unknownKind kind) := by
  rw [ofEntries, Json.popEntry_textEntries]
  cases Json.field? fields "kind" with
  | none => rfl
  | some kind =>
      simp only [Json.asKeywords_textEntries, ok_bind]
      split <;> simp_all

/-- The order of the fields of a definition does not matter. -/
theorem ofEntries_perm (h : fields.Perm fields') (hnodup : (fields'.map (·.1)).Nodup)
    (hok : ofEntries (Json.textEntries fields') = .ok m) :
    ofEntries (Json.textEntries fields) = .ok m := by
  have hrest := Json.dropField_perm h "kind"
  have hnodup' := Json.nodup_dropField hnodup "kind"
  rw [ofEntries_textEntries] at hok ⊢
  rw [Json.field?_perm h hnodup]
  split at hok
  · cases hok
  · exact buildMap_perm hrest hnodup' hok
  · exact buildStore_perm hrest hnodup' hok
  · cases hok

end

theorem nodup_definitionFields (m : Module) : (m.definitionFields.map (·.1)).Nodup := by
  cases h : m.kind <;> simp [definitionFields, h]

end Module

namespace Graph

/-! ### Ids that differ -/

/-- No two ids of the graph are the same key. -/
def DistinctIds (g : Graph) : Prop := g.ids.Pairwise fun a b => a.same b = false

namespace DistinctIds

variable {g g' : Graph}

theorem of_addsNoId (h : g.DistinctIds) (hg : g.AddsNoId g') : g'.DistinctIds :=
  List.Pairwise.sublist hg.ids h

theorem put (h : g.DistinctIds) (id : Scalar) (m : Module) : (g.put id m).DistinctIds := by
  unfold DistinctIds
  obtain hput | ⟨hnew, hput⟩ := g.ids_put id m
  · rwa [hput]
  · rw [hput, List.pairwise_append]
    exact ⟨h, List.pairwise_singleton _ _, by simpa using hnew⟩

theorem load (h : g.DistinctIds) {state : Json} (hl : g.load state = .ok g') :
    g'.DistinctIds := by
  obtain ⟨m, -, ⟨-, rfl⟩ | ⟨-, key, -, -, rfl⟩⟩ := load_cases hl
  · exact h.put (idOf g.next) m
  · exact h.put key m

theorem foldlM_load (h : g.DistinctIds) {states : List Json}
    (hl : states.foldlM Graph.load g = .ok g') : g'.DistinctIds :=
  foldlM_keeps hl h fun _ _ _ _ h hl => h.load hl

theorem of_loaded {definition : Json} (h : ofDefinition definition = .ok g) : g.DistinctIds := by
  obtain ⟨fields, modules, states, loaded, next, -, -, -, -, hloaded, -, rfl⟩ :=
    ofDefinition_eq_ok.mp h
  have hdistinct : loaded.DistinctIds := foldlM_load (g := {}) List.Pairwise.nil hloaded
  exact hdistinct

/-- No operation puts two modules under one id. -/
theorem perform (h : g.DistinctIds) (op : Operation) : (g.perform op).2.DistinctIds := by
  cases hinserts : op.inserts with
  | true =>
      obtain ⟨m, hm⟩ | ⟨f, hf⟩ := g.perform_inserts hinserts
      · exact hm ▸ h.put (idOf g.next) m
      · exact hf ▸ h
  | false =>
      cases hreplaces : op.replaces with
      | false => exact h.of_addsNoId (g.addsNoId_perform hinserts hreplaces)
      | true =>
          have hmade := g.makes_perform op
          generalize (g.perform op).2 = g' at hmade ⊢
          cases hmade with
          | same => exact h
          | load hg | reload hg => exact of_loaded hg
          | _ => cases hreplaces

end DistinctIds

theorem Reachable.distinctIds {g : Graph} (h : g.Reachable) : g.DistinctIds := by
  induction h with
  | empty => exact List.Pairwise.nil
  | perform op _ ih => exact ih.perform op

/-! ### Loading what was written -/

/-- The fields in which a module is written with its id. -/
def entryFields (e : Scalar × Module) : List (String × Json) :=
  ("id", e.1.toJson) :: e.2.definitionFields

theorem nodup_entryFields (e : Scalar × Module) : ((entryFields e).map (·.1)).Nodup := by
  rw [entryFields, List.map_cons, List.nodup_cons]
  refine ⟨?_, e.2.nodup_definitionFields⟩
  cases h : e.2.kind <;> simp [Module.definitionFields, h]

theorem dropField_entryFields (e : Scalar × Module) :
    Json.dropField (entryFields e) "id" = e.2.definitionFields := by
  cases h : e.2.kind <;> simp [entryFields, Json.dropField, Module.definitionFields, h]

theorem toJson_eq_null {key : Scalar} : key.toJson = .null ↔ key = .null := by
  cases key <;> simp [Scalar.toJson]

theorem asKey_toJson (key : Scalar) : key.toJson.asKey = .ok key := by
  rw [Json.asKey, Scalar.ofJson?_toJson]

/-- An entry whose fields are those of a module in any order puts the module under its id. -/
theorem load_entry {g : Graph} {fields : List (String × Json)} {e : Scalar × Module}
    (h : fields.Perm (entryFields e)) (hnull : e.1 ≠ .null) (hname : ValidName e.2.name)
    (hfree : e.2.name ∉ g.names) : g.load (.object fields) = .ok (g.put e.1 e.2) := by
  have hid : Json.field? fields "id" = some e.1.toJson := by
    rw [Json.field?_perm h (nodup_entryFields e)]
    rfl
  have hrest := dropField_entryFields e ▸ Json.dropField_perm h "id"
  have hbuilt : Module.ofEntries (Json.textEntries e.2.definitionFields) = .ok e.2 :=
    Module.ofDefinition_definition hname
  have hm := Module.ofEntries_perm hrest e.2.nodup_definitionFields hbuilt
  simp only [load, Json.asEntries_object, ok_bind, Json.popEntry_textEntries, hid, hm]
  split
  · simp_all
  · rename_i heq
    rw [Option.some.injEq] at heq
    exact absurd (toJson_eq_null.mp heq) hnull
  · rename_i heq
    rw [Option.some.injEq] at heq
    rw [← heq, asKey_toJson, find?_eq_none_iff.mpr hfree]
    rfl

/-- Whether an entry of a definition has the fields of a module, in any order. -/
def Writes (state : Json) (e : Scalar × Module) : Prop :=
  ∃ fields, state = .object fields ∧ fields.Perm (entryFields e)

/-- Entries under new ids and names are loaded one behind the other. -/
theorem foldlM_load_entries {g : Graph} {states : List Json} {entries : List (Scalar × Module)}
    (h : List.Forall₂ Writes states entries)
    (hvalid : ∀ e ∈ entries, e.1 ≠ .null ∧ ValidName e.2.name)
    (hnames : ((g.entries ++ entries).map (·.2.name)).Nodup)
    (hids : ((g.entries ++ entries).map (·.1)).Pairwise fun a b => a.same b = false) :
    states.foldlM load g = .ok { g with entries := g.entries ++ entries } := by
  induction h generalizing g with
  | nil => simp
  | @cons state e states entries hfirst _ ih =>
      obtain ⟨fields, rfl, hfields⟩ := hfirst
      obtain ⟨⟨hnull, hname⟩, hrest⟩ := List.forall_mem_cons.mp hvalid
      have hfree : e.2.name ∉ g.names := by
        rw [List.map_append, List.map_cons, List.nodup_middle, List.nodup_cons] at hnames
        exact fun hmem => hnames.1 (List.mem_append_left _ hmem)
      have hnew : ∀ e' ∈ g.entries, e'.1.same e.1 = false := by
        rw [List.map_append, List.pairwise_append] at hids
        exact fun e' he' => hids.2.2 _ (List.mem_map_of_mem he') _ (by simp)
      have hput : g.put e.1 e.2 = { g with entries := g.entries ++ [e] } := by
        rw [put, Json.setEntry_of_forall hnew]
      have happend : g.entries ++ e :: entries = g.entries ++ [e] ++ entries := by simp
      rw [happend] at hnames hids ⊢
      rw [List.foldlM_cons, load_entry hfields hnull hname hfree, ok_bind, hput]
      exact ih hrest hnames hids

/-- A definition that has the modules of a graph in their order is loaded as that graph. -/
theorem ofDefinition_entries {g : Graph} (hg : g.Reachable)
    (hids : ∀ id ∈ g.ids, ∃ n, id.IsInteger n) {fields : List (String × Json)}
    {states : List Json} (hversion : Json.field? fields "version" = some (.str version))
    (hmodules : Json.field? fields "modules" = some (.list states))
    (hstates : List.Forall₂ Writes states g.entries) :
    ∃ next, ofDefinition (.object fields) = .ok { entries := g.entries, next } := by
  have hvalid : ∀ e ∈ g.entries, e.1 ≠ .null ∧ ValidName e.2.name := by
    refine fun e he => ⟨?_, hg.wellNamed.valid _ (List.mem_map_of_mem he)⟩
    rintro hnull
    obtain ⟨n, hn⟩ := hids e.1 (List.mem_map_of_mem he)
    simp [hnull, Scalar.IsInteger, Scalar.number?, Scalar.toJson, Json.number?] at hn
  have hloaded : states.foldlM load {} = .ok { entries := g.entries } :=
    foldlM_load_entries hstates hvalid hg.wellNamed.nodup hg.distinctIds
  obtain ⟨next, hnext, -⟩ := numberAfter_integers hids
  exact ⟨.int next, ofDefinition_eq_ok.mpr ⟨fields, _, states, _, _, rfl,
    by simp [hversion, Json.same], hmodules, rfl, hloaded, hnext, rfl⟩⟩

end Graph

/-! ### Writing -/

/-- Modules with text for code and inputs, and a truth value for whether they are edited. -/
structure Module.Textual (m : Module) : Prop where
  code : ∃ code, m.code = .str code
  inputs : ∀ input ∈ m.inputs, ∃ name, input = .str name
  editing : ∃ editing, m.editing = .bool editing

theorem Scalar.IsInteger.readable {depth : Nat} {id : Scalar} {n : Int} (h : id.IsInteger n)
    (hdigits : (Nat.toDigits 10 n.natAbs).length ≤ Number.digitLimit) :
    Json.Readable depth id.toJson := by
  cases id with
  | null | str _ | bool _ | float _ => trivial
  | int k =>
      cases h
      exact hdigits

namespace Graph

/-- What stands in the fields of a module that holds text. -/
theorem entryFields_cases {e : Scalar × Module} (h : e.2.Textual) {f : String × Json}
    (hf : f ∈ entryFields e) :
    f.2 = e.1.toJson ∨ (∃ s, f.2 = .str s) ∨ (∃ b, f.2 = .bool b) ∨
      ∃ items, f.2 = .list items ∧ ∀ v ∈ items, ∃ s, v = .str s := by
  have hpolicy : f.2 = e.1.toJson ∨ (∃ s, f.2 = .str s) ∨ f.2 = e.2.code ∨
      f.2 = .list e.2.inputs ∨ f.2 = e.2.editing := by
    cases hkind : e.2.kind <;> simp only [entryFields, Module.definitionFields, hkind,
      List.mem_cons, List.mem_append, List.not_mem_nil, or_false] at hf <;> grind
  obtain hid | htext | hcode | hinputs | hediting := hpolicy
  · exact .inl hid
  · exact .inr (.inl htext)
  · exact .inr (.inl (hcode ▸ h.code))
  · exact .inr (.inr (.inr ⟨_, hinputs, h.inputs⟩))
  · exact .inr (.inr (.inl (hediting ▸ h.editing)))

theorem readable_entry {depth : Nat} {e : Scalar × Module} (h : e.2.Textual)
    (hid : Json.Readable (depth + 1) e.1.toJson) :
    Json.Readable (depth + 2) (.object (entryFields e)) := by
  rw [Json.Readable, Json.readableFields_iff]
  refine ⟨nodup_entryFields e, fun f hf => ?_⟩
  obtain hf | ⟨s, hf⟩ | ⟨b, hf⟩ | ⟨items, hf, hitems⟩ := entryFields_cases h hf
  · exact hf ▸ hid
  · exact hf ▸ trivial
  · exact hf ▸ trivial
  · rw [hf, Json.Readable, Json.readableItems_iff]
    intro v hv
    obtain ⟨s, rfl⟩ := hitems v hv
    trivial

/-- In an entry only its own fields are there to be sorted. -/
theorem sorted_entry {e : Scalar × Module} (h : e.2.Textual) :
    (Json.object (entryFields e)).sorted = .object (Json.sortFields (entryFields e)) := by
  have hvalues : ∀ f ∈ entryFields e, (f.1, f.2.sorted) = f := by
    intro f hf
    refine Prod.ext rfl ?_
    obtain hf | ⟨s, hf⟩ | ⟨b, hf⟩ | ⟨items, hf, hitems⟩ := entryFields_cases h hf
    · rw [hf]
      cases e.1 <;> rfl
    · rw [hf]
      rfl
    · rw [hf]
      rfl
    · have hsame : items.map Json.sorted = items := by
        refine (List.map_congr_left fun v hv => ?_).trans (List.map_id items)
        obtain ⟨s, rfl⟩ := hitems v hv
        rfl
      rw [hf, Json.sorted, Json.sortedItems_eq_map, hsame]
  rw [Json.sorted, Json.sortedFields_eq_map, List.map_congr_left hvalues, List.map_id']

theorem definition_eq (g : Graph) :
    g.definition = .object [("version", .str version),
      ("modules", .list (g.entries.map fun e => .object (entryFields e)))] := rfl

/-- The brackets of a written graph are four deep. -/
theorem readable_definition {depth : Nat} {g : Graph} (htext : ∀ e ∈ g.entries, e.2.Textual)
    (hids : ∀ id ∈ g.ids, Json.Readable (depth + 1) id.toJson) :
    Json.Readable (depth + 4) g.definition := by
  have hmodules : Json.ReadableItems (depth + 2)
      (g.entries.map fun e => .object (entryFields e)) := by
    rw [Json.readableItems_iff]
    intro v hv
    obtain ⟨e, he, rfl⟩ := List.mem_map.mp hv
    exact readable_entry (htext e he) (hids e.1 (List.mem_map_of_mem he))
  simp [definition_eq, Json.Readable, Json.ReadableFields, hmodules]

/-- A written graph has its fields in order, at the top and in each entry. -/
theorem sorted_definition {g : Graph} (htext : ∀ e ∈ g.entries, e.2.Textual) :
    g.definition.sorted = .object (Json.sortFields [("version", .str version),
      ("modules", .list (g.entries.map fun e => .object (Json.sortFields (entryFields e))))]) := by
  have hentries : (g.entries.map fun e => Json.object (entryFields e)).map Json.sorted =
      g.entries.map fun e => .object (Json.sortFields (entryFields e)) := by
    rw [List.map_map]
    exact List.map_congr_left fun e he => sorted_entry (htext e he)
  simp only [definition_eq, Json.sorted, Json.sortedFields, Json.sortedItems_eq_map, hentries]

/-- Settings of the layout: the indentation, whether fields are sorted, and whether characters
beyond ASCII are escaped. -/
inductive Layout : String × Json → Prop
  | onOneLine : Layout ("indent", .null)
  | indented (blanks : Nat) : Layout ("indent", .int blanks)
  | sorted (sort : Bool) : Layout ("sort_keys", .bool sort)
  | escaped (ascii : Bool) : Layout ("ensure_ascii", .bool ascii)

theorem styleOf_layout {settings : List (String × Json)} (h : ∀ s ∈ settings, Layout s) :
    ∃ style, styleOf settings = .ok style ∧ style.Blank := by
  induction settings with
  | nil => exact ⟨{}, rfl, nofun⟩
  | cons s rest ih =>
      obtain ⟨hs, hrest⟩ := List.forall_mem_cons.mp h
      obtain ⟨style, hstyle, hblank⟩ := ih hrest
      cases hs with
      | onOneLine => exact ⟨style, by rw [styleOf, hstyle]; rfl, hblank⟩
      | indented blanks =>
          refine ⟨_, by rw [styleOf, hstyle]; rfl, fun cs hcs c hc => ?_⟩
          cases hcs
          rw [List.eq_of_mem_replicate hc]
          rfl
      | sorted sort =>
          exact ⟨{ style with sortKeys := sort }, by rw [styleOf, hstyle]; rfl, hblank⟩
      | escaped ascii => exact ⟨{ style with ascii }, by rw [styleOf, hstyle]; rfl, hblank⟩

theorem writes_of_perm {entries : List (Scalar × Module)}
    (order : List (String × Json) → List (String × Json)) (h : ∀ fields, (order fields).Perm fields) :
    List.Forall₂ Writes (entries.map fun e => .object (order (entryFields e))) entries := by
  rw [List.forall₂_map_left_iff, List.forall₂_same]
  exact fun e _ => ⟨_, rfl, h (entryFields e)⟩

/-- What was written of a graph is loaded as the graph, as it is and with its fields sorted. -/
theorem ofDefinition_definition {g : Graph} (hg : g.Reachable)
    (hids : ∀ id ∈ g.ids, ∃ n, id.IsInteger n) (htext : ∀ e ∈ g.entries, e.2.Textual) :
    ∀ v ∈ [g.definition, g.definition.sorted], ∃ next,
      ofDefinition v = .ok { entries := g.entries, next } := by
  have hplain : ∃ next, ofDefinition g.definition = .ok { entries := g.entries, next } :=
    ofDefinition_entries hg hids rfl rfl (writes_of_perm id fun _ => .refl _)
  have hsorted : ∃ next, ofDefinition g.definition.sorted = .ok { entries := g.entries, next } := by
    rw [sorted_definition htext]
    have hfield := Json.field?_perm (Json.sortFields_perm [("version", .str version),
      ("modules", .list (g.entries.map fun e => .object (Json.sortFields (entryFields e))))])
      (by simp)
    exact ofDefinition_entries hg hids (hfield "version") (hfield "modules")
      (writes_of_perm Json.sortFields Json.sortFields_perm)
  simpa using ⟨hplain, hsorted⟩

/-- A graph that is saved and loaded has the same modules under the same ids in the same order,
in whatever layout it is written, and so does a graph that is loaded from the other's definition. -/
theorem saved_is_loaded {g : Graph} (hg : g.Reachable)
    (hids : ∀ id ∈ g.ids, ∃ n, id.IsInteger n ∧
      (Nat.toDigits 10 n.natAbs).length ≤ Number.digitLimit)
    (htext : ∀ e ∈ g.entries, e.2.Textual) {settings : List (String × Json)}
    (hsettings : ∀ s ∈ settings, Layout s) :
    ∃ text v, g.dumps settings = .ok text ∧ Json.read text = .ok v ∧
      ∀ definition ∈ [v, g.definition], ∃ loaded, ofDefinition definition = .ok loaded ∧
        loaded.entries = g.entries ∧ loaded.definition = g.definition := by
  obtain ⟨style, hstyle, hblank⟩ := styleOf_layout hsettings
  have hintegers : ∀ id ∈ g.ids, ∃ n, id.IsInteger n := fun id hid =>
    (hids id hid).imp fun n hn => hn.1
  have hreadable : Json.Readable (976 + 4) g.definition := by
    refine readable_definition htext fun id hid => ?_
    obtain ⟨n, hn, hdigits⟩ := hids id hid
    exact hn.readable hdigits
  have hread := Json.read_rendered hblank hreadable
  have hloaded : ∀ definition ∈ [g.definition, g.definition.sorted], ∃ loaded,
      ofDefinition definition = .ok loaded ∧
        loaded.entries = g.entries ∧ loaded.definition = g.definition := by
    intro definition hdefinition
    obtain ⟨next, h⟩ := ofDefinition_definition hg hintegers htext definition hdefinition
    exact ⟨_, h, rfl, rfl⟩
  have hwritten : (if style.sortKeys then g.definition.sorted else g.definition) ∈
      [g.definition, g.definition.sorted] := by
    split <;> simp
  exact ⟨_, _, by rw [dumps, hstyle]; rfl, hread, List.forall_mem_cons.mpr
    ⟨hloaded _ hwritten, List.forall_mem_singleton.mpr (hloaded _ (by simp))⟩⟩

/-- A graph with a number and a truth value for ids, loaded with the fields of its modules in no
order, and with characters in it that are escaped. -/
def unordered : Json := .object [("modules", .list [
  .object [("name", .str "größe"), ("kind", .str "store"), ("id", .int (-7)),
    ("code", .str "x = \"\\\"\n"), ("update_policy", .str "setOnce")],
  .object [("editing", .bool false), ("id", .bool true),
    ("inputs", .list [.str "größe", .str "\x00"]),
    ("kind", .str "map"), ("name", .str "b")]])]

theorem saved_is_loaded_unordered :
    ∃ g text v, ofDefinition unordered = .ok g ∧
      g.dumps [("sort_keys", .bool true), ("indent", .int 1)] = .ok text ∧ Json.read text = .ok v ∧
      ∀ definition ∈ [v, g.definition], ∃ loaded, ofDefinition definition = .ok loaded ∧
        loaded.entries = g.entries ∧ loaded.definition = g.definition := by
  have hload : ofDefinition unordered = .ok {
      entries := [
        (.int (-7), {
          kind := .store .setOnce, name := "größe", code := .str "x = \"\\\"\n" }),
        (.bool true, {
          kind := .map, name := "b", inputs := [.str "größe", .str "\x00"]
          editing := .bool false })]
      next := .int 2 } := by rfl
  have hids : ∀ id ∈ [Scalar.int (-7), .bool true], ∃ n, id.IsInteger n ∧
      (Nat.toDigits 10 n.natAbs).length ≤ Number.digitLimit := by
    rw [List.forall_mem_cons, List.forall_mem_singleton]
    exact ⟨⟨-7, rfl, by decide⟩, ⟨1, rfl, by decide⟩⟩
  obtain ⟨text, v, htext, hread, hloaded⟩ := saved_is_loaded (Origin.loaded hload).reachable hids
    (List.forall_mem_cons.mpr ⟨⟨⟨_, rfl⟩, by simp, ⟨_, rfl⟩⟩,
      List.forall_mem_singleton.mpr ⟨⟨_, rfl⟩, by simp, ⟨_, rfl⟩⟩⟩)
    (List.forall_mem_cons.mpr ⟨.sorted true, List.forall_mem_singleton.mpr (.indented 1)⟩)
  exact ⟨_, text, v, hload, htext, hread, hloaded⟩

end Graph

end BlockWorkbench
