import BlockWorkbench.Proofs.Renaming

/-!
What every graph is made of, whatever was done to it and whatever it was loaded from. Its modules
are those that the constructors of maps and stores accept, so each can be built again from what is
written of it, and a name means one of them at most.
-/

namespace BlockWorkbench

namespace Module

/-- The constructor of maps accepts what a map writes of itself. -/
theorem buildMap_fields {m : Module} (hname : ValidName m.name) (hkind : m.kind = .map) :
    buildMap [("name", .str m.name), ("code", m.code), ("inputs", .list m.inputs),
      ("editing", m.editing)] = .ok m := by
  have hchecked := checkName_eq_ok.mpr ⟨rfl, hname⟩
  obtain ⟨kind, name, code, inputs, editing⟩ := m
  cases hkind
  simp [buildMap, checkArguments, Json.field?, inputList, Json.elements, hchecked, ok_bind,
    pure_eq_ok]

/-- The constructor of stores accepts what a store writes of itself. -/
theorem buildStore_fields {m : Module} {policy : UpdatePolicy} (hname : ValidName m.name)
    (hkind : m.kind = .store policy) :
    buildStore [("name", .str m.name), ("code", m.code), ("inputs", .list m.inputs),
      ("editing", m.editing), ("update_policy", .str policy.text)] = .ok m := by
  have hchecked := checkName_eq_ok.mpr ⟨rfl, hname⟩
  have hpolicy : UpdatePolicy.parse (.str policy.text) = .ok policy := by cases policy <;> rfl
  obtain ⟨kind, name, code, inputs, editing⟩ := m
  cases hkind
  simp [buildStore, checkArguments, Json.field?, inputList, Json.elements, hchecked, hpolicy,
    ok_bind, pure_eq_ok]

/-- A module under a valid name is what its definition describes. -/
theorem ofDefinition_definition {m : Module} (hname : ValidName m.name) :
    ofDefinition m.definition = .ok m := by
  cases hkind : m.kind with
  | map =>
      rw [← buildMap_fields hname hkind]
      simp only [definition, definitionFields, hkind]
      rfl
  | store policy =>
      rw [← buildStore_fields hname hkind]
      simp only [definition, definitionFields, hkind]
      rfl

end Module

namespace Graph

/-- What a graph may hold: modules of the two kinds under names of their own, none of them blank
or that of the block, with one of the two policies for each store and a list of inputs. -/
structure WellFormed (g : Graph) : Prop where
  names_nodup : g.names.Nodup
  names_valid : ∀ e ∈ g.entries, ValidName e.2.name
  kinds : ∀ e ∈ g.entries,
    (Json.field? e.2.definitionFields "kind" = some (.str "map") ∧
      Json.field? e.2.definitionFields "update_policy" = none) ∨
    (Json.field? e.2.definitionFields "kind" = some (.str "store") ∧
      ∃ policy ∈ ["set", "setOnce"],
        Json.field? e.2.definitionFields "update_policy" = some (.str policy))
  inputs : ∀ e ∈ g.entries,
    ∃ inputs, Json.field? e.2.definitionFields "inputs" = some (.list inputs)
  accepted : ∀ e ∈ g.entries, Module.ofDefinition e.2.definition = .ok e.2

/-- The kind that a module writes of itself, with the policy that goes with it. -/
theorem kind_of_definition (m : Module) :
    (Json.field? m.definitionFields "kind" = some (.str "map") ∧
      Json.field? m.definitionFields "update_policy" = none) ∨
    (Json.field? m.definitionFields "kind" = some (.str "store") ∧
      ∃ policy ∈ ["set", "setOnce"],
        Json.field? m.definitionFields "update_policy" = some (.str policy)) := by
  obtain ⟨kind, name, code, inputs, editing⟩ := m
  cases kind with
  | map => exact .inl ⟨rfl, rfl⟩
  | store policy => exact .inr ⟨rfl, policy.text, by cases policy <;> simp [UpdatePolicy.text], rfl⟩

theorem WellNamed.wellFormed {g : Graph} (h : g.WellNamed) : g.WellFormed where
  names_nodup := h.nodup
  names_valid e he := h.valid e.2.name (List.mem_map_of_mem he)
  kinds e _ := kind_of_definition e.2
  inputs e _ := ⟨e.2.inputs, rfl⟩
  accepted e he := Module.ofDefinition_definition (h.valid e.2.name (List.mem_map_of_mem he))

/-- A name finds the one module that has it, or nothing if none has it. -/
theorem WellNamed.find?_cases {g : Graph} (h : g.WellNamed) (name : Json) :
    (∃ e ∈ g.entries, name = .str e.2.name ∧ g.find? name = some e ∧
      ∀ e' ∈ g.entries, name = .str e'.2.name → e' = e) ∨
    ((∀ e ∈ g.entries, name ≠ .str e.2.name) ∧ g.find? name = none) := by
  cases hfind : g.find? name with
  | some e =>
      obtain ⟨he, hname⟩ := h.find?_eq_some_iff.mp hfind
      refine .inl ⟨e, he, hname, rfl, fun e' he' hname' => ?_⟩
      have hfind' : g.find? name = some e' := h.find?_eq_some_iff.mpr ⟨he', hname'⟩
      exact Option.some.inj (hfind'.symm.trans hfind)
  | none =>
      refine .inr ⟨fun e he hname => ?_, rfl⟩
      have hfind' : g.find? name = some e := h.find?_eq_some_iff.mpr ⟨he, hname⟩
      simp [hfind] at hfind'

/-- The graphs that work starts with. -/
inductive Origin : Graph → Prop
  | empty : Origin {}
  | starter : Origin starter
  | loaded {definition : Json} {g : Graph} (h : ofDefinition definition = .ok g) : Origin g

/-- The graph that operations leave, whether they succeed or not. -/
def after (g : Graph) (operations : List Operation) : Graph :=
  operations.foldl (fun g op => (g.perform op).2) g

theorem Origin.reachable {g : Graph} (h : g.Origin) : g.Reachable := by
  cases h with
  | empty => exact .empty
  | starter => exact reachable_starter
  | @loaded definition _ h =>
      have hload : (({} : Graph).perform (.load definition)).2 = g := by
        simp [Graph.perform, changed, h, ok_bind, pure_eq_ok]
      exact hload ▸ .perform (.load definition) .empty

theorem Reachable.after {g : Graph} (h : g.Reachable) (operations : List Operation) :
    (g.after operations).Reachable := by
  induction operations generalizing g with
  | nil => exact h
  | cons op rest ih => exact ih (.perform op h)

/-- Whatever a graph starts from and whatever is done to it, it is well formed, and a name finds
the one module that has it. -/
theorem wellFormed_after {g : Graph} (h : g.Origin) (operations : List Operation) :
    (g.after operations).WellFormed ∧ ∀ name : Json,
      (∃ e ∈ (g.after operations).entries, name = .str e.2.name ∧
        (g.after operations).find? name = some e ∧
        ∀ e' ∈ (g.after operations).entries, name = .str e'.2.name → e' = e) ∨
      ((∀ e ∈ (g.after operations).entries, name ≠ .str e.2.name) ∧
        (g.after operations).find? name = none) :=
  have hnamed := (h.reachable.after operations).wellNamed
  ⟨hnamed.wellFormed, hnamed.find?_cases⟩

/-- A definition that puts two modules under one id. -/
def overlaid : Json := .object [("modules", .list [
  .object [("id", .int 1), ("kind", .str "map"), ("name", .str "a")],
  .object [("id", .int 2), ("kind", .str "store"), ("name", .str "b"), ("code", .int 5)],
  .object [("id", .int 1), ("kind", .str "map"), ("name", .str "c")]])]

/-- Of two renames the first fails, and the second stops half way. -/
theorem wellFormed_after_failed_renames :
    ∃ g, ofDefinition overlaid = .ok g ∧
      (g.after [.rename (.int 1) (.str "b"), .rename (.int 2) (.str "d")]).names = ["c", "d"] ∧
      (g.after [.rename (.int 1) (.str "b"), .rename (.int 2) (.str "d")]).WellFormed :=
  have hload : ofDefinition overlaid = .ok {
      entries := [(.int 1, { kind := .map, name := "c" }),
        (.int 2, { kind := .store .set, name := "b", code := .int 5 })]
      next := .int 3 } := by rfl
  ⟨_, hload, rfl, (wellFormed_after (.loaded hload) _).1⟩

end Graph

end BlockWorkbench
