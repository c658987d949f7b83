import BlockWorkbench.Api
import BlockWorkbench.Proofs.Generation

/-!
Two walks over the inputs of a graph. One lists every input that stands for nothing, the other
stops at the first; as both meet the inputs in the same order, the script fails with the first
thing there is to complain about, and there is a script where there is none.
-/

namespace BlockWorkbench

namespace Module

/-- The inputs of a module in order, each with the name of the module. -/
def occurrences (m : Module) : List (String × Json) := m.inputs.map fun input => (m.name, input)

end Module

namespace Graph

/-- Whether an input is the block or the name of a module. -/
def knows (g : Graph) : Json → Bool
  | .str s => s == blockName || g.names.contains s
  | _ => false

/-- The occurrences of unknown inputs, in the order of the modules and of their inputs. -/
def unknown (g : Graph) : List (String × Json) :=
  (g.entries.flatMap fun e => e.2.occurrences).filter fun o => !g.knows o.2

/-- What is wrong with an unknown input. -/
def complaint (occurrence : String × Json) : Fault :=
  .unresolvedInput occurrence.1 occurrence.2

variable {g : Graph}

theorem isNone_resolve? (g : Graph) (input : Json) :
    (g.resolve? input).isNone = !g.knows input := by
  cases hfind : g.find? input with
  | some e =>
      obtain ⟨he, rfl⟩ := find?_eq_some hfind
      have hmem : e.2.name ∈ g.names := List.mem_map_of_mem he
      simp [resolve?, hfind, knows, hmem]
  | none =>
      cases input with
      | str s =>
          have hnotMem : s ∉ g.names := find?_eq_none_iff.mp hfind
          obtain rfl | hs := eq_or_ne s blockName
          · simp [resolve?, hfind, knows]
          · simp [resolve?, hfind, knows, hs, hnotMem]
      | null | bool _ | int _ | float _ | list _ | object _ => simp [resolve?, hfind, knows]

theorem isSome_resolve? (g : Graph) (input : Json) :
    (g.resolve? input).isSome = g.knows input := by
  rw [← Option.not_isNone, isNone_resolve?, Bool.not_not]

theorem unresolved_eq_map (g : Graph) :
    g.unresolved = g.unknown.map fun o => (complaint o).message := by
  simp only [unresolved, unknown, List.filter_flatMap, List.map_flatMap, isNone_resolve?,
    Module.occurrences, List.filter_map, List.map_map]
  rfl

theorem unknown_eq_nil_iff : g.unknown = [] ↔ g.unresolved = [] := by
  rw [unresolved_eq_map, List.map_eq_nil_iff]

/-! ### The script -/

/-- The inputs of a module are resolved up to the first unknown one. -/
theorem resolveAll_eq_error {m : Module} {inputs : List Json} {input : Json}
    (h : inputs.find? (fun input => !g.knows input) = some input) :
    g.resolveAll m inputs = .error (.unresolvedInput m.name input) := by
  induction inputs with
  | nil => simp at h
  | cons first rest ih =>
      rw [List.find?_cons, ← isNone_resolve?] at h
      cases hfirst : g.resolve? first with
      | none =>
          simp only [hfirst, Option.isNone_none, Option.some.injEq] at h
          subst h
          simp [resolveAll, hfirst]
      | some source =>
          simp only [hfirst, Option.isNone_some] at h
          simp [resolveAll, hfirst, ih h]

theorem find?_occurrences (g : Graph) (m : Module) :
    m.occurrences.find? (fun o => !g.knows o.2) =
      (m.inputs.find? fun input => !g.knows input).map fun input => (m.name, input) := by
  rw [Module.occurrences, List.find?_map]
  rfl

theorem resolves_iff {m : Module} :
    g.Resolves m ↔ m.occurrences.find? (fun o => !g.knows o.2) = none := by
  simp [Resolves, Module.occurrences, isSome_resolve?]

theorem registration_eq_error {m : Module} {o : String × Json}
    (h : m.occurrences.find? (fun o => !g.knows o.2) = some o) :
    g.registration m = .error (complaint o) := by
  rw [find?_occurrences, Option.map_eq_some_iff] at h
  obtain ⟨input, hinput, rfl⟩ := h
  rw [registration, resolveAll_eq_error hinput]
  rfl

/-- The modules are registered up to the first unknown input of any. -/
theorem registrations_eq_error {ms : List Module} {o : String × Json}
    (h : (ms.flatMap Module.occurrences).find? (fun o => !g.knows o.2) = some o) :
    g.registrations ms = .error (complaint o) := by
  induction ms with
  | nil => simp at h
  | cons m rest ih =>
      rw [List.flatMap_cons, List.find?_append] at h
      cases hm : m.occurrences.find? fun o => !g.knows o.2 with
      | some first =>
          rw [hm, Option.some_or, Option.some.injEq] at h
          subst h
          simp [registrations, registration_eq_error hm]
      | none =>
          rw [hm, Option.none_or] at h
          have hok : g.registration m = .ok (registrationText m (g.sources m.inputs)) := by
            simp [registration, resolveAll_eq_ok (resolves_iff.mpr hm)]
          simp [registrations, hok, ih h]

/-- The script fails with the first complaint. -/
theorem script_eq_error {o : String × Json} (h : g.unknown.head? = some o) :
    g.script = .error (complaint o) := by
  have hfirst : ((g.entries.map (·.2)).flatMap Module.occurrences).find?
      (fun o => !g.knows o.2) = some o := by
    rwa [List.flatMap_map, ← List.head?_filter]
  rw [script, registrations_eq_error hfirst]
  rfl

/-- What a module adds to the script: the statement that registers it, its code as it is and a
line end. -/
def IsPart (g : Graph) (m : Module) (text : String) : Prop :=
  ∃ statement code, g.registration m = .ok statement ∧ m.code = .str code ∧
    text = statement ++ code ++ "\n"

/-- Without complaints the script is made of the parts of all modules in graph order. -/
theorem script_eq_join (hcode : ∀ e ∈ g.entries, ∃ code, e.2.code = .str code)
    (h : g.unresolved = []) : ∃ parts,
      List.Forall₂ (fun e text => g.IsPart e.2 text) g.entries parts ∧
        g.script = .ok (String.join parts) := by
  have hres := unresolved_eq_nil_iff.mp h
  refine ⟨_, ?_, script_eq_ok fun e he => ⟨hres e he, hcode e he⟩⟩
  rw [List.forall₂_map_right_iff, List.forall₂_same]
  intro e he
  refine ⟨registrationText e.2 (g.sources e.2.inputs), e.2.codeText, ?_,
    Module.code_eq_codeText (hcode e he), rfl⟩
  simp [registration, resolveAll_eq_ok (hres e he)]

/-- There is a script and no complaint, or the script fails with the first of the complaints. -/
theorem script_cases (hcode : ∀ e ∈ g.entries, ∃ code, e.2.code = .str code) :
    (g.unresolved = [] ∧ ∃ parts,
      List.Forall₂ (fun e text => g.IsPart e.2 text) g.entries parts ∧
        g.script = .ok (String.join parts)) ∨
    ∃ o, g.unresolved.head? = some (complaint o).message ∧ g.script = .error (complaint o) := by
  cases hhead : g.unknown.head? with
  | none =>
      have hnil := unknown_eq_nil_iff.mp (List.head?_eq_none_iff.mp hhead)
      exact .inl ⟨hnil, script_eq_join hcode hnil⟩
  | some o =>
      refine .inr ⟨o, ?_, script_eq_error hhead⟩
      rw [unresolved_eq_map, List.head?_map, hhead]
      rfl

end Graph

namespace Api

/-- What the client is told of a graph with a script. -/
def foundSource (text : String) : Document :=
  .fields [("source", .str text), ("errors", .list [])]

/-- What the client is told of a graph without one. -/
def failedSource (complaints : List String) : Document :=
  .fields [("source", .null), ("errors", .list (complaints.map fun (c : String) => .str c))]

/-- Asking for the source gives a text and no complaints, or complaints and no text. -/
theorem perform_source {api : Api} {e : Editor} (hapi : api.editor = some e)
    (halive : e.activity.ownerAlive = true)
    (hcode : ∀ entry ∈ e.graph.entries, ∃ code, entry.2.code = .str code) :
    (∃ text, api.perform .source = { result := .ok (foundSource text), api } ∧
      e.graph.unresolved = [] ∧ e.graph.script = .ok text) ∨
    (api.perform .source = { result := .ok (failedSource e.graph.unresolved), api } ∧
      e.graph.unresolved ≠ []) := by
  obtain ⟨hnil, parts, -, hscript⟩ | ⟨o, hhead, hscript⟩ := Graph.script_cases hcode
  · refine .inl ⟨String.join parts, ?_, hnil, hscript⟩
    simp [perform, hapi, performWith, sourceDocument, Editor.script, Editor.look, halive, hscript,
      foundSource]
  · refine .inr ⟨?_, fun hnil => by simp [hnil] at hhead⟩
    simp [perform, hapi, performWith, sourceDocument, Editor.script, Editor.look, halive, hscript,
      Graph.complaint, Editor.complaints, failedSource]

end Api

namespace Graph

end Graph

end BlockWorkbench
