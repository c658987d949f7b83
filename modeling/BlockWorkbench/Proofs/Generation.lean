import BlockWorkbench.Proofs.Reachable

/-!
When a graph has a script, and which. A script exists exactly if every input resolves and all code
is text; it then runs through the modules in graph order.
-/

namespace BlockWorkbench

/-- The code of a module, if it is text. -/
def Module.codeText (m : Module) : String :=
  match m.code with
  | .str code => code
  | _ => ""

theorem Module.code_eq_codeText {m : Module} (h : ∃ code, m.code = .str code) :
    m.code = .str m.codeText := by
  obtain ⟨code, hcode⟩ := h
  simp [codeText, hcode]

namespace Graph

/-- The sources of inputs that resolve. -/
def sources (g : Graph) (inputs : List Json) : List InputSource := inputs.filterMap g.resolve?

/-- The part of the script that registers and defines a module. -/
def part (g : Graph) (m : Module) : String :=
  registrationText m (g.sources m.inputs) ++ m.codeText ++ "\n"

/-- Every input of the module stands for something. -/
def Resolves (g : Graph) (m : Module) : Prop := ∀ input ∈ m.inputs, (g.resolve? input).isSome

theorem resolveAll_eq_ok {g : Graph} {m : Module} {inputs : List Json}
    (h : ∀ input ∈ inputs, (g.resolve? input).isSome) :
    g.resolveAll m inputs = .ok (g.sources inputs) := by
  induction inputs with
  | nil => rfl
  | cons input rest ih =>
      obtain ⟨source, hsource⟩ := Option.isSome_iff_exists.mp (h input List.mem_cons_self)
      have hrest := ih fun i hi => h i (List.mem_cons_of_mem input hi)
      simp [resolveAll, sources, hsource, hrest]

theorem resolves_of_resolveAll {g : Graph} {m : Module} {inputs : List Json}
    {found : List InputSource} (h : g.resolveAll m inputs = .ok found) :
    ∀ input ∈ inputs, (g.resolve? input).isSome := by
  induction inputs generalizing found with
  | nil => simp
  | cons input rest ih =>
      cases hsource : g.resolve? input with
      | none => simp [resolveAll, hsource] at h
      | some source =>
          simp only [resolveAll, hsource, bind_eq_ok] at h
          obtain ⟨found', hrest, -⟩ := h
          intro i hi
          obtain rfl | hi := List.mem_cons.mp hi
          · simp [hsource]
          · exact ih hrest i hi

theorem registrations_eq_ok {g : Graph} {ms : List Module} (h : ∀ m ∈ ms, g.Resolves m) :
    g.registrations ms =
      .ok (ms.map fun m => (m, registrationText m (g.sources m.inputs))) := by
  induction ms with
  | nil => rfl
  | cons m rest ih =>
      have hm : g.registration m = .ok (registrationText m (g.sources m.inputs)) := by
        simp [registration, resolveAll_eq_ok (h m List.mem_cons_self)]
      have hrest := ih fun m' hm' => h m' (List.mem_cons_of_mem m hm')
      simp [registrations, hm, hrest]

theorem registrations_cons {g : Graph} {ms : List Module} {texts : List (Module × String)}
    (h : g.registrations ms = .ok texts) :
    texts.map (·.1) = ms ∧ ∀ m ∈ ms, g.Resolves m := by
  induction ms generalizing texts with
  | nil =>
      cases h
      exact ⟨rfl, by simp⟩
  | cons m rest ih =>
      simp only [registrations, registration, bind_eq_ok] at h
      obtain ⟨text, ⟨found, hfound, -⟩, texts', hrest, h⟩ := h
      cases h
      obtain ⟨hmods, hres⟩ := ih hrest
      refine ⟨by simp [hmods], fun m' hm' => ?_⟩
      obtain rfl | hm' := List.mem_cons.mp hm'
      · exact resolves_of_resolveAll hfound
      · exact hres m' hm'

/-- Statements and code follow each other if all code is text. -/
theorem joinParts_eq_ok {texts : List (Module × String)} (index : Nat)
    (h : ∀ t ∈ texts, ∃ code, t.1.code = .str code) :
    joinParts index texts =
      .ok (String.join (texts.map fun t => t.2 ++ t.1.codeText ++ "\n")) := by
  induction texts generalizing index with
  | nil => rfl
  | cons t rest ih =>
      have ht := Module.code_eq_codeText (h t List.mem_cons_self)
      have hrest := ih (index + 3) fun t' ht' => h t' (List.mem_cons_of_mem t ht')
      simp [joinParts, ht, hrest, String.join_cons]

theorem joinParts_text {texts : List (Module × String)} {index : Nat} {s : String}
    (h : joinParts index texts = .ok s) : ∀ t ∈ texts, ∃ code, t.1.code = .str code := by
  induction texts generalizing index s with
  | nil => simp
  | cons t rest ih =>
      simp only [joinParts] at h
      split at h
      · rename_i code hcode
        obtain ⟨s', hrest, -⟩ := bind_eq_ok.mp h
        intro t' ht'
        obtain rfl | ht' := List.mem_cons.mp ht'
        · exact ⟨code, hcode⟩
        · exact ih hrest t' ht'
      · cases h

/-- The script of a graph, part by part. -/
theorem script_eq_ok {g : Graph}
    (h : ∀ e ∈ g.entries, g.Resolves e.2 ∧ ∃ code, e.2.code = .str code) :
    g.script = .ok (String.join (g.entries.map fun e => g.part e.2)) := by
  have hres : ∀ m ∈ g.entries.map (·.2), g.Resolves m := by
    intro m hm
    obtain ⟨e, he, rfl⟩ := List.mem_map.mp hm
    exact (h e he).1
  have hcode : ∀ t ∈ (g.entries.map (·.2)).map fun m =>
      (m, registrationText m (g.sources m.inputs)), ∃ code, t.1.code = .str code := by
    intro t ht
    simp only [List.map_map, List.mem_map, Function.comp_apply] at ht
    obtain ⟨e, he, rfl⟩ := ht
    exact (h e he).2
  have hjoin := joinParts_eq_ok 0 hcode
  simp only [script, registrations_eq_ok hres, ok_bind, hjoin]
  simp [Function.comp_def, part]

/-- A graph has a script exactly if all its inputs resolve and all its code is text. -/
theorem script_isOk_iff {g : Graph} :
    (∃ text, g.script = .ok text) ↔
      ∀ e ∈ g.entries, g.Resolves e.2 ∧ ∃ code, e.2.code = .str code := by
  constructor
  · rintro ⟨text, h⟩
    obtain ⟨texts, htexts, hjoin⟩ := bind_eq_ok.mp h
    obtain ⟨hmods, hres⟩ := registrations_cons htexts
    intro e he
    have hmem : e.2 ∈ g.entries.map (·.2) := List.mem_map_of_mem he
    refine ⟨hres e.2 hmem, ?_⟩
    obtain ⟨t, ht, hte⟩ := List.mem_map.mp (hmods ▸ hmem)
    exact hte ▸ joinParts_text hjoin t ht
  · exact fun h => ⟨_, script_eq_ok h⟩

/-- Nothing is complained about exactly if all inputs resolve. -/
theorem unresolved_eq_nil_iff {g : Graph} :
    g.unresolved = [] ↔ ∀ e ∈ g.entries, g.Resolves e.2 := by
  simp [unresolved, Resolves, List.filter_eq_nil_iff, Option.isSome_iff_ne_none]

end Graph

end BlockWorkbench
