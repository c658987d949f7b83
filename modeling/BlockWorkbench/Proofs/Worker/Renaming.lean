import BlockWorkbench.Proofs.Templates
import BlockWorkbench.Proofs.Worker.Failing

/-!
Renames and builds. Whether a worker builds the manifest of a graph of new modules is told from the
names and kinds of its modules, and the manifest of a renamed graph lists the same modules under
the new name.
-/

namespace BlockWorkbench

/-- An input of a manifest after a rename. -/
def renamedInput (old new : String) : Json → Json
  | .object [("map", .str name)] => .object [("map", .str (renamedName old new name))]
  | .object [("store", .str name)] => .object [("store", .str (renamedName old new name))]
  | input => input

/-- A field of a module of a manifest after a rename. -/
def renamedField (old new : String) : String × Json → String × Json
  | ("name", .str name) => ("name", .str (renamedName old new name))
  | ("handler", .str name) => ("handler", .str (renamedName old new name))
  | ("inputs", .list inputs) => ("inputs", .list (inputs.map (renamedInput old new)))
  | field => field

/-- A module of a manifest after a rename: wherever the old name stands for a module, the new one
does. -/
def renamedEntry (old new : String) : Json → Json
  | .object fields => .object (fields.map (renamedField old new))
  | entry => entry

theorem renamedInput_self (name : String) (input : Json) :
    renamedInput name name input = input := by
  unfold renamedInput
  split <;> simp [renamedName_self]

theorem renamedEntry_self (name : String) (entry : Json) :
    renamedEntry name name entry = entry := by
  have hinput : renamedInput name name = id := funext (renamedInput_self name)
  have hfield : renamedField name name = id := by
    funext field
    unfold renamedField
    split <;> simp [renamedName_self, hinput]
  unfold renamedEntry
  split <;> simp [hfield]

namespace Graph

variable {g g' : Graph} {old new : String}

namespace Renames

variable (h : g.Renames old new g')

include h

theorem resolves (hresolves : ∀ e ∈ g.entries, g.Resolves e.2) :
    ∀ e ∈ g'.entries, g'.Resolves e.2 := by
  rw [h.entries, List.forall_mem_map]
  intro e he input hinput
  obtain ⟨input₀, hinput₀, rfl⟩ := List.mem_map.mp hinput
  exact h.resolve?_isSome (hresolves e he input₀ hinput₀)

/-- An input that resolves does not name what has the new name only afterwards. -/
theorem input_ne_new {input : Json} (hres : (g.resolve? input).isSome) : input ≠ .str new := by
  rintro rfl
  have hfind := find?_eq_none_iff.mpr h.new_notMem
  have hblock : Json.str new ≠ .str blockName := fun heq => h.new_valid.2 (Json.str.inj heq)
  simp [resolve?_eq_none hfind hblock] at hres

theorem listedInput_redirect {input : Json} (hres : (g.resolve? input).isSome) :
    g'.listedInput (redirect old new input) = renamedInput old new (g.listedInput input) := by
  cases hfind : g.find? input with
  | some e =>
      simp only [listedInput, hfind, h.find?_redirect hfind]
      cases hkind : e.2.kind <;> simp [Module.renamed, hkind, ModuleKind.text, renamedInput]
  | none =>
      obtain ⟨hredirect, hfind'⟩ := h.find?_eq_none hfind (h.input_ne_new hres)
      simp only [listedInput, hfind, hredirect, hfind']
      rfl

/-- A renamed graph lists its modules as the graph did, with the new name for the old. -/
theorem listed_renamed {m : Module} (hres : g.Resolves m) :
    g'.listed (m.renamed old new) = renamedEntry old new (g.listed m) := by
  have hinputs : (m.inputs.map (redirect old new)).map g'.listedInput =
      (m.inputs.map g.listedInput).map (renamedInput old new) := by
    simp only [List.map_map]
    exact List.map_congr_left fun input hinput => h.listedInput_redirect (hres input hinput)
  simp only [listed, renamedEntry, List.map_cons, List.map_nil, renamedField, ← hinputs]
  rfl

theorem reads_back (hresolves : ∀ e ∈ g.entries, g.Resolves e.2) {a b : String}
    (hreads : g'.Reads a b) : g.Reads (renamedName new old a) (renamedName new old b) := by
  obtain ⟨ha, e', he', rfl, hinput⟩ := hreads
  rw [h.names] at ha
  rw [h.entries] at he'
  obtain ⟨a₀, ha₀, rfl⟩ := List.mem_map.mp ha
  obtain ⟨e, he, rfl⟩ := List.mem_map.mp he'
  obtain ⟨input, hmem, hinput⟩ := List.mem_map.mp hinput
  have hne : a₀ ≠ new := fun heq => h.new_notMem (heq ▸ ha₀)
  have hread := (redirect_eq_iff (h.input_ne_new (hresolves e he input hmem)) hne).mp hinput
  have hname : renamedName new old (e.2.renamed old new).name = e.2.name :=
    renamedName_back (h.ne_new he)
  rw [renamedName_back hne, hname]
  exact ⟨ha₀, e, he, rfl, hread ▸ hmem⟩

theorem acyclic (hresolves : ∀ e ∈ g.entries, g.Resolves e.2) (hacyclic : g.Acyclic) :
    g'.Acyclic := fun a ha =>
  hacyclic _ (Relation.TransGen.lift (renamedName new old)
    (fun _ _ => h.reads_back hresolves) a a ha)

end Renames

end Graph

namespace ExecutionWorker

open Script (Value Machine bound? compileSource compileSource_str)

variable (fuel : Nat) (cache : BlockCache Value) {w : ExecutionWorker} {source : Json}

/-- A source that fails is not answered as one that succeeds. -/
theorem messages_evaluate_error {failure : Script.Failure}
    (h : (w.outcome fuel source).1 = .error failure) :
    (step fuel cache w (.evaluate source)).messages ≠ [.text (.str "Result: None")] := by
  have hevaluate : ∃ w', w.evaluate fuel source = sayFailure w' "Result: Error: " failure := by
    unfold outcome at h
    unfold evaluate
    cases hcompile : compileSource source with
    | error f =>
        rw [hcompile] at h
        cases h
        exact ⟨w, rfl⟩
    | ok statements =>
        simp only [hcompile] at h ⊢
        cases heval : w.machine.evalUnit fuel (w.unit ++ statements) with | mk value m =>
        rw [heval] at h
        cases h
        exact ⟨_, rfl⟩
  obtain ⟨w', hfailure⟩ := hevaluate
  rw [messages_step, handle, hfailure]
  obtain ⟨text, hsay⟩ | hgiveUp | hbreakOff := sayFailure_cases w' "Result: Error: " failure
  · rw [hsay]
    simp [Handled.say, Points.ofString]
  · rw [hgiveUp]
    split <;> simp [Handled.giveUp, refusal, Points.ofString]
  · rw [hbreakOff]
    simp [Handled.breakOff]

/-- A source without a value is answered by the literal of nothing. -/
theorem step_none {statements : Script.Program} (hsource : compileSource source = .ok statements)
    {m : Machine} (hrun : Script.evalProgram fuel (w.unit ++ statements) w.machine =
      (.value .none, m)) :
    (step fuel cache w (.evaluate source)).messages = [.text (.str "Result: None")] ∧
      (step fuel cache w (.evaluate source)).worker = ⟨m, w.unit ++ statements⟩ := by
  have hevaluate : w.evaluate fuel source = .say ⟨m, w.unit ++ statements⟩ "Result: None" := by
    simp only [evaluate, hsource, Machine.evalUnit_eq_settle, hrun]
    rfl
  rw [messages_step, worker_step, handle, hevaluate]
  exact ⟨rfl, rfl⟩

/-- A build calls the handler that has the name of its function, and fails. -/
theorem messages_build_handler {handlers : List String} (h : w.machine.HasHandlers handlers)
    (hmem : "codegen" ∈ handlers) (text : String) :
    (step (fuel + 7) cache w .build).messages ≠
      [.text (.str ("Build result: " ++ .ofString text))] := by
  obtain ⟨a, f, path, names, hbound, ha⟩ := h.bound _ hmem
  have hname : Script.eval (fuel + 6) none (.name "codegen") w.machine.restored =
      (.value (.function a), w.machine.restored) := by
    rw [Script.eval]
    exact Machine.nameValue_of_bound ((w.machine.bound?_restored (by decide)).trans hbound)
  obtain ⟨r, m', hcall⟩ := f.call_raises (fuel + 1) (m := w.machine.restored) ha (.inl rfl)
  have hrun : Script.eval (fuel + 7) none (.call (.name "codegen") []) w.machine.restored =
      (.raised r, m') := by
    rw [Script.eval, Script.bind_apply, hname]
    exact hcall
  rw [messages_step, handle]
  simp only [build, Machine.evalSource, compileSource_build, Machine.evalUnit_eq_settle,
    evalProgram_build, hrun, Machine.settle]
  obtain ⟨line, hsay⟩ | hgiveUp | hbreakOff :=
    sayFailure_cases { w with machine := m' } "Build error: " (m'.failureOf r)
  · simp [hsay, Handled.say, Points.ofString]
  · simp [hgiveUp, Handled.giveUp, refusal, Points.ofString]
  · simp [hbreakOff, Handled.breakOff]

/-- A script and a build are answered by one message each, unless they break the worker off. -/
theorem messages_evaluate_build {a b : Message Value} :
    (Handled.transcript (step fuel cache) w [.evaluate source, .build]).flatMap (·.messages) =
        [a, b] ↔
      (step fuel cache w (.evaluate source)).messages = [a] ∧
        (step fuel cache (step fuel cache w (.evaluate source)).worker .build).messages = [b] := by
  have hshort (w : ExecutionWorker) {request : Message Value}
      (hrequest : request = .evaluate source ∨ request = .build) :
      (step fuel cache w request).messages = [] ∨
        ∃ x, (step fuel cache w request).messages = [x] := by
    by_cases hbreaks : w.Breaks fuel cache request
    · have hopen := step_leavesOpen hbreaks
      generalize (step fuel cache w request).messages = messages at hopen
      obtain rfl | rfl := hrequest <;> cases hopen <;> exact .inl rfl
    · have hanswer := step_answers hbreaks
      generalize (step fuel cache w request).messages = messages at hanswer
      obtain rfl | rfl := hrequest <;> cases hanswer <;> exact .inr ⟨_, rfl⟩
  simp only [Handled.transcript, List.flatMap_cons, List.flatMap_nil, List.append_nil]
  obtain hx | ⟨x, hx⟩ := hshort w (.inl rfl)
  · obtain hy | ⟨y, hy⟩ := hshort (step fuel cache w (.evaluate source)).worker (.inr rfl) <;>
      simp [hx, hy]
  · simp [hx]

end ExecutionWorker

namespace Graph

open Script (Value Identifier HandlerForm Draft Machine Flow compileSource compileSource_str)
open ExecutionWorker (step)

/-- Whether a worker at the start runs the script of a graph and then builds a manifest with these
entries. -/
def Builds (g : Graph) (fuel : Nat) (cache : BlockCache Value) (entries : List Json) : Prop :=
  ∃ script manifest, g.script = .ok script ∧
    (Handled.transcript (step fuel cache) {} [.evaluate (.str script), .build]).flatMap
      (·.messages) =
        [.text (.str "Result: None"), .text (.str ("Build result: " ++ .ofString manifest))] ∧
    Json.read manifest = .ok (.object [("modules", .list entries)])

section Running

variable {g : Graph} {fuel : Nat} (cache : BlockCache Value) {script : String}
variable {unit : Script.Program} {m : Script.Machine}

/-- A graph whose script runs is built if the function that a build calls is not bound and the
script has registered the modules of the graph. The entries are those modules, each once. -/
theorem builds_of_run (hg : g.WellNamed) (hresolves : ∀ e ∈ g.entries, g.Resolves e.2)
    (hacyclic : g.Acyclic) (hscript : g.script = .ok script)
    (hunit : Script.compile script = .ok unit)
    (hrun : Script.evalProgram (fuel + 2) unit {} = (.value .none, m))
    (hunbound : Script.bound? m.scope "codegen" = none) (hoffered : m.store.Offers .manifest)
    (hregistry : m.registry = g.registry) :
    ∃ placed : List Module, placed.Perm (g.entries.map (·.2)) ∧
      ∀ entries, g.Builds (fuel + 2) cache entries ↔ entries = placed.map g.listed := by
  obtain ⟨manifest, placed, htext, hread, hperm, -⟩ :=
    manifestText_registry hg hresolves hacyclic m.store
  rw [← hregistry] at htext
  obtain ⟨hmessages, hworker⟩ := ExecutionWorker.step_none (fuel + 2) cache (w := {})
    (compileSource_str hunit) hrun
  have hbuild := ExecutionWorker.messages_build fuel cache (w := ⟨m, unit⟩) hunbound hoffered
    htext
  refine ⟨placed, hperm, fun entries => ⟨?_, ?_⟩⟩
  · rintro ⟨script', manifest', hscript', hboth, hread'⟩
    cases hscript.symm.trans hscript'
    obtain ⟨-, hbuild'⟩ := (ExecutionWorker.messages_evaluate_build _ _).mp hboth
    rw [hworker] at hbuild'
    obtain rfl : manifest = manifest' := Points.ofString_injective <| by
      simpa using hbuild.symm.trans hbuild'
    simpa using hread'.symm.trans hread
  · rintro rfl
    exact ⟨script, manifest, hscript,
      (ExecutionWorker.messages_evaluate_build _ _).mpr ⟨hmessages, hworker ▸ hbuild⟩, hread⟩

/-- A graph whose script fails is not built. -/
theorem not_builds_of_error (hscript : g.script = .ok script) (failure : Script.Failure)
    (h : (({} : ExecutionWorker).outcome fuel (.str script)).1 = .error failure)
    (entries : List Json) : ¬ g.Builds fuel cache entries := by
  rintro ⟨script', manifest, hscript', hboth, -⟩
  cases hscript.symm.trans hscript'
  exact ExecutionWorker.messages_evaluate_error fuel cache h
    ((ExecutionWorker.messages_evaluate_build _ _).mp hboth).1

theorem not_builds_of_raises (hscript : g.script = .ok script)
    (hunit : Script.compile script = .ok unit) {r : Script.Raised}
    (hrun : Script.evalProgram fuel unit {} = (.raised r, m)) (entries : List Json) :
    ¬ g.Builds fuel cache entries := by
  refine not_builds_of_error cache hscript (m.failureOf r) ?_ entries
  simp only [ExecutionWorker.outcome, compileSource_str hunit,
    Script.Machine.evalUnit_eq_settle, List.nil_append, hrun, Script.Machine.settle]

end Running

/-- What the modules of a graph must be like so that it is built: their code compiles, and no
name is that of a function that is called behind it. -/
structure Fits (g : Graph) : Prop where
  compiles : ∀ e ∈ g.entries, e.2.Compiles
  clear : g.Clear
  unnamed : "codegen" ∉ g.names

/-- A well-formed graph of new modules without cycles. -/
structure Plain (g : Graph) : Prop where
  wellNamed : g.WellNamed
  resolves : ∀ e ∈ g.entries, g.Resolves e.2
  names : ∀ n ∈ g.names, Identifier n
  isTemplate : ∀ e ∈ g.entries, e.2.IsTemplate
  acyclic : g.Acyclic

/-- Whether a graph is built is told from its modules, and so is what is built. -/
theorem Plain.builds_spec {g : Graph} (h : g.Plain) {fuel : Nat} (hfuel : 7 ≤ fuel)
    (cache : BlockCache Value) :
    (g.Fits → ∃ entries, g.Builds fuel cache entries) ∧
    ∀ entries, g.Builds fuel cache entries →
      g.Fits ∧ entries.Perm ((g.entries.map (·.2)).map g.listed) := by
  obtain ⟨fuel, rfl⟩ := Nat.exists_eq_add_of_le' hfuel
  obtain ⟨script, unit, hscript, hcompiles, hruns, hraises⟩ :=
    script_templates h.wellNamed h.resolves h.names h.isTemplate fuel
  have hbuilt (hfits : g.Fits) : ∃ placed : List Module, placed.Perm (g.entries.map (·.2)) ∧
      ∀ entries, g.Builds (fuel + 7) cache entries ↔ entries = placed.map g.listed := by
    obtain ⟨m, hrun, hhandlers, hregistry⟩ := hruns hfits.clear
    exact builds_of_run cache h.wellNamed h.resolves h.acyclic hscript
      ((hcompiles unit).mpr ⟨rfl, hfits.compiles⟩) hrun
      (hhandlers.unbound _ hfits.unnamed (by decide)) (hhandlers.intact.offers rfl) hregistry
  refine ⟨fun hfits => ?_, fun entries hbuilds => ?_⟩
  · obtain ⟨placed, -, hentries⟩ := hbuilt hfits
    exact ⟨_, (hentries _).mpr rfl⟩
  -- What a graph lacks to fit shows when the worker is asked to build it: the script does not
  -- compile, its run raises an error, or a handler is called in place of the builder.
  · obtain ⟨program, hprogram⟩ : ∃ program, Script.compile script = .ok program := by
      cases hprogram : Script.compile script with
      | ok program => exact ⟨program, rfl⟩
      | error f =>
          refine absurd hbuilds (not_builds_of_error cache hscript (.script f.text) ?_ _)
          simp only [ExecutionWorker.outcome, compileSource, hprogram]
    obtain ⟨rfl, hcode⟩ := (hcompiles program).mp hprogram
    have hclear : g.Clear := by
      by_contra hclear
      obtain ⟨r, m, hrun⟩ := hraises hclear
      exact not_builds_of_raises cache hscript hprogram hrun entries hbuilds
    have hunnamed : "codegen" ∉ g.names := by
      intro hmem
      obtain ⟨m, hrun, hhandlers, -⟩ := hruns hclear
      obtain ⟨-, hworker⟩ := ExecutionWorker.step_none (fuel + 7) cache (w := {})
        (compileSource_str hprogram) hrun
      obtain ⟨script', manifest, hscript', hboth, -⟩ := hbuilds
      cases hscript.symm.trans hscript'
      obtain ⟨-, hbuild⟩ := (ExecutionWorker.messages_evaluate_build _ _).mp hboth
      rw [hworker] at hbuild
      exact ExecutionWorker.messages_build_handler fuel cache hhandlers hmem manifest hbuild
    have hfits : g.Fits := ⟨hcode, hclear, hunnamed⟩
    obtain ⟨placed, hperm, hentries⟩ := hbuilt hfits
    rw [(hentries entries).mp hbuilds]
    exact ⟨hfits, hperm.map g.listed⟩

section Renamed

variable {g g' : Graph} {old new : String}

theorem Plain.renamed (h : g.Plain) (hr : g.Renames old new g') (hnew : Identifier new) :
    g'.Plain where
  wellNamed := hr.wellNamed'
  resolves := hr.resolves h.resolves
  names := by
    rw [hr.names, List.forall_mem_map]
    intro n hn
    unfold renamedName
    split
    · exact hnew
    · exact h.names n hn
  isTemplate := by
    rw [hr.entries, List.forall_mem_map]
    exact fun e he => (h.isTemplate e he).renamed (h.names old hr.old_mem) new
  acyclic := hr.acyclic h.resolves h.acyclic

theorem name_ne_constant {m : Module} (hcode : m.IsTemplate) (hname : Identifier m.name)
    (hcompiles : m.Compiles) : m.name ≠ Script.constantName := by
  obtain ⟨f, hf, hstr⟩ := hcode
  rw [Module.Compiles, Module.codeText, hstr] at hcompiles
  exact ((Script.HandlerForm.compile_text hf hname).mp hcompiles).1

/-- Renamed code compiles unless the new name is that of the constant. -/
theorem compiles_renamed {m : Module} (hcode : m.IsTemplate) (hname : Identifier m.name)
    (hnew : Identifier new) (hcompiles : m.Compiles) :
    (m.renamed old new).Compiles ↔ (m.name = old → new ≠ Script.constantName) := by
  obtain ⟨f, hf, hstr⟩ := hcode
  rw [Module.Compiles, Module.codeText, hstr] at hcompiles
  have hplaceable := ((Script.HandlerForm.compile_text hf hname).mp hcompiles).2
  by_cases hold : m.name = old
  · subst hold
    simp only [Module.Compiles, Module.renamed, Module.codeText, hstr, if_pos,
      Handler.rename_text new hf hname, Script.HandlerForm.compile_text hf hnew, hplaceable]
    simp
  · simp only [Module.Compiles, Module.renamed, Module.codeText, hstr, if_neg hold, hcompiles]
    simp [hold]

theorem clear_renamed (hr : g.Renames old new g') {before after : List (Scalar × Module)}
    {e : Scalar × Module} (hentries : g.entries = before ++ e :: after) (hold : e.2.name = old)
    (hclear : g.Clear) :
    g'.Clear ↔ ∀ e ∈ after, new ≠ e.2.kind.registerFunction := by
  have hsame : ∀ e' ∈ before ++ after, renamedName old new e'.2.name = e'.2.name := fun e' he =>
    if_neg (hold ▸ hr.wellNamed.ne_name hentries e' he)
  have hnew : renamedName old new e.2.name = new := if_pos hold
  simp only [Clear, hentries, List.pairwise_map, List.pairwise_append, List.pairwise_cons] at hclear
  obtain ⟨hbefore, ⟨-, hafter⟩, hbetween⟩ := hclear
  simp only [Clear, hr.entries, hentries, List.map_map, List.pairwise_map, List.pairwise_append,
    List.pairwise_cons, Function.comp_apply, Module.renamed, hnew]
  constructor
  · rintro ⟨-, ⟨hbehind, -⟩, -⟩
    exact hbehind
  · intro hbehind
    refine ⟨hbefore.imp_of_mem fun ha _ hab => ?_,
      ⟨hbehind, hafter.imp_of_mem fun ha _ hab => ?_⟩, fun a ha b hb => ?_⟩
    · rwa [hsame _ (List.mem_append_left after ha)]
    · rwa [hsame _ (List.mem_append_right before ha)]
    · rw [hsame a (List.mem_append_left after ha)]
      exact hbetween a ha b hb

/-- A renamed graph is built unless the new name is that of a function that is called behind it. -/
theorem fits_renamed (h : g.Plain) (hr : g.Renames old new g') (hnew : Identifier new)
    {before after : List (Scalar × Module)} {e : Scalar × Module}
    (hentries : g.entries = before ++ e :: after) (hold : e.2.name = old) (hfits : g.Fits) :
    g'.Fits ↔ new ≠ "codegen" ∧ new ≠ Script.constantName ∧
      ∀ e ∈ after, new ≠ e.2.kind.registerFunction := by
  have hcompiles : (∀ e ∈ g'.entries, e.2.Compiles) ↔ new ≠ Script.constantName := by
    rw [hr.entries, List.forall_mem_map]
    have hmodule : ∀ e' ∈ g.entries, (e'.2.renamed old new).Compiles ↔
        (e'.2.name = old → new ≠ Script.constantName) := fun e' he =>
      compiles_renamed (h.isTemplate e' he) (h.names _ (List.mem_map_of_mem he)) hnew
        (hfits.compiles e' he)
    constructor
    · intro hall
      have hmem : e ∈ g.entries := by simp [hentries]
      exact (hmodule e hmem).mp (hall e hmem) hold
    · exact fun hconstant e' he => (hmodule e' he).mpr fun _ => hconstant
  have hunnamed : "codegen" ∉ g'.names ↔ new ≠ "codegen" := by
    rw [hr.names, not_iff_comm, not_not]
    constructor
    · rintro rfl
      exact List.mem_map.mpr ⟨old, hr.old_mem, if_pos rfl⟩
    · intro hmem
      obtain ⟨n, hn, hname⟩ := List.mem_map.mp hmem
      unfold renamedName at hname
      split at hname
      · exact hname
      · exact absurd (hname ▸ hn) hfits.unnamed
  rw [← hunnamed, ← hcompiles, ← clear_renamed hr hentries hold hfits.clear]
  exact ⟨fun h => ⟨h.unnamed, h.compiles, h.clear⟩, fun ⟨h₁, h₂, h₃⟩ => ⟨h₂, h₃, h₁⟩⟩

end Renamed

/-- To build commutes with a rename. If a worker builds a graph of new modules, what it builds of
the graph after a rename are the same entries with the new name for the old. It builds them unless
the new name is that of the constant or of a function that is called behind the module: the one that
a build calls, or the one that registers a module standing behind it. -/
theorem renamed_graph_builds_iff {g : Graph}
    (hg : g.OfTemplates fun source => Identifier source.plain)
    (hnames : ∀ n ∈ g.names, Identifier n) (hacyclic : g.Acyclic) {fuel : Nat} (hfuel : 7 ≤ fuel)
    (cache : BlockCache Value) {entries : List Json} (hbuilds : g.Builds fuel cache entries)
    {id : Json} {key : Scalar} {m : Module} {new : String} {r : Renaming}
    (hm : g.lookup id = .ok (key, m)) (hr : (g.rename id (.str new)).1 = .ok r)
    (hnew : Identifier new) :
    (∀ entries', (g.rename id (.str new)).2.Builds fuel cache entries' →
      entries'.Perm (entries.map (renamedEntry m.name new))) ∧
    ((∃ entries', (g.rename id (.str new)).2.Builds fuel cache entries') ↔
      new ≠ "codegen" ∧ new ≠ Script.constantName ∧
        ∀ before after, g.entries = before ++ (key, m) :: after →
          ∀ e ∈ after, new ≠ e.2.kind.registerFunction) := by
  have hresolves : ∀ e ∈ g.entries, g.Resolves e.2 := by
    obtain ⟨script, -, hscript, -⟩ := hbuilds
    exact fun e he => (script_isOk_iff.mp ⟨script, hscript⟩ e he).1
  have hplain : g.Plain :=
    ⟨hg.reachable.wellNamed, hresolves, hnames, hg.isTemplate, hacyclic⟩
  obtain ⟨hfits, hperm⟩ := (hplain.builds_spec hfuel cache).2 entries hbuilds
  obtain ⟨before, after, hentries, -⟩ := lookup_eq_ok hm
  obtain ⟨f, hren⟩ | ⟨key', m', hm', hname, hren⟩ |
    ⟨key', m', new', hm', hname, hvalid, hfree⟩ := rename_cases g id (.str new)
  · simp [hren] at hr
  · cases hm.symm.trans hm'
    cases hname
    have hsame : entries.map (renamedEntry m.name m.name) = entries :=
      List.map_id'' (renamedEntry_self m.name) entries
    have hmem : (key, m) ∈ g.entries := by simp [hentries]
    rw [hren, hsame]
    refine ⟨fun entries' h => ((hplain.builds_spec hfuel cache).2 entries' h).2.trans hperm.symm,
      fun _ => ⟨?_, ?_, fun before after hentries e he => ?_⟩, fun _ => ⟨entries, hbuilds⟩⟩
    · exact fun hname => hfits.unnamed (hname ▸ List.mem_map_of_mem (f := (·.2.name)) hmem)
    · exact name_ne_constant (hg.isTemplate _ hmem) hnew (hfits.compiles _ hmem)
    · have hclear := hfits.clear
      simp only [Clear, hentries, List.pairwise_map, List.pairwise_append,
        List.pairwise_cons] at hclear
      exact hclear.2.1.1 e he
  · cases hm.symm.trans hm'
    cases hname
    obtain ⟨f, hf, hcode⟩ := hg.isTemplate (key, m) (by simp [hentries])
    have h := renames_of_rename hplain.wellNamed hm hcode hvalid hfree
    rw [rename_of_free hm hcode hvalid hfree]
    generalize (g.put key { m with
      name := new, code := .str (Handler.rename (f.text m.name) m.name new) }).redirectAll
        m.name new = g' at h
    -- The graph after the rename is one of new modules as well, so what is built of either is told
    -- from its modules.
    have hplain' := hplain.renamed h hnew
    obtain ⟨hbuilt, hspec⟩ := hplain'.builds_spec hfuel cache
    have hlisted : (g'.entries.map (·.2)).map g'.listed =
        ((g.entries.map (·.2)).map g.listed).map (renamedEntry m.name new) := by
      simp only [h.entries, List.map_map]
      exact List.map_congr_left fun e he => h.listed_renamed (hresolves e he)
    refine ⟨fun entries' hentries' => ?_, ?_, ?_⟩
    · exact (hlisted ▸ (hspec entries' hentries').2).trans (hperm.symm.map _)
    · rintro ⟨entries', hentries'⟩
      obtain ⟨hfits', -⟩ := hspec entries' hentries'
      obtain ⟨hcodegen, hconstant, -⟩ := (fits_renamed hplain h hnew hentries rfl hfits).mp hfits'
      exact ⟨hcodegen, hconstant, fun before after hsplit =>
        ((fits_renamed hplain h hnew hsplit rfl hfits).mp hfits').2.2⟩
    · rintro ⟨hcodegen, hconstant, hbehind⟩
      exact hbuilt ((fits_renamed hplain h hnew hentries rfl hfits).mpr
        ⟨hcodegen, hconstant, hbehind before after hentries⟩)

theorem ofTemplates_starter : starter.OfTemplates fun source => Identifier source.plain := by
  have h : starter = (((({} : Graph).perform (.newMap (.str "foo"))).2).perform
      (.newStore (.str "test_store") (.str "foo"))).2 := by rfl
  rw [h]
  exact .newStore _ _ (by decide) (.newMap _ .empty)

theorem plain_starter : starter.Plain where
  wellNamed := reachable_starter.wellNamed
  resolves := unresolved_eq_nil_iff.mp rfl
  names := by decide
  isTemplate := ofTemplates_starter.isTemplate
  acyclic := acyclic_starter

theorem fits_starter : starter.Fits where
  compiles := by
    have hfoo : Identifier "foo" := by decide
    intro e he
    simp only [starter, List.mem_cons, List.not_mem_nil, or_false] at he
    obtain rfl | rfl := he
    · exact (HandlerForm.compile_text (f := .map) trivial hfoo).mpr ⟨by decide, trivial⟩
    · exact (HandlerForm.compile_text (f := .store "foo") hfoo (by decide)).mpr
        ⟨by decide, by decide, by decide⟩
  clear := by simp [Clear, starter, ModuleKind.registerFunction]
  unnamed := by decide

theorem builds_starter : ∃ entries, starter.Builds 1000 (.empty .none) entries :=
  (plain_starter.builds_spec (by decide) (.empty .none)).1 fits_starter

theorem renamed_graph_builds_iff_starter : ∃ entries entries',
    starter.Builds 1000 (.empty .none) entries ∧
    (starter.rename (.int 1) (.str "bar")).2.Builds 1000 (.empty .none) entries' ∧
    entries'.Perm (entries.map (renamedEntry "foo" "bar")) := by
  obtain ⟨entries, hbuilds⟩ := builds_starter
  have hfoo : starter.lookup (.int 1) = .ok (.int 1, {
      kind := .map, name := "foo", code := .str (Module.mapTemplate "foo")
      inputs := [.str blockName] }) := rfl
  have hbar : (starter.rename (.int 1) (.str "bar")).1 = .ok (.renamed "foo" "bar") := rfl
  obtain ⟨hperm, hiff⟩ := renamed_graph_builds_iff ofTemplates_starter plain_starter.names
    acyclic_starter (show 7 ≤ 1000 by decide) (.empty .none) hbuilds hfoo hbar (by decide)
  have hfree : ∀ e : Scalar × Module, "bar" ≠ e.2.kind.registerFunction := by
    intro e
    cases e.2.kind <;> simp [ModuleKind.registerFunction]
  obtain ⟨entries', hbuilds'⟩ := hiff.mpr ⟨by decide, by decide, fun _ _ _ e _ => hfree e⟩
  exact ⟨entries, entries', hbuilds, hbuilds', hperm entries' hbuilds'⟩

/-- A source that ends the parameters of a store and makes the rest of its line a text. -/
def pastedSource : String := "x=a): (\"\"\""

/-- The definition that is the code of a store with the source. -/
def pastedDefinition : Script.Stmt :=
  .define "st" [⟨"x", some (.name "a")⟩] [.expr (.str (.ofString ", s):\n    s.set(x=a): ("))]

def blockMap (name : String) : Module :=
  { kind := .map, name, code := .str (Module.mapTemplate name), inputs := [.str blockName] }

def pastedStore (input : String) : Module :=
  { kind := .store .set, name := "st", code := .str (Module.storeTemplate "st" pastedSource)
    inputs := [.str input] }

/-- A map, a store that it feeds with more than a name as its source, and a map behind both. -/
def pasted (name : String) : Graph where
  entries := [(.int 1, blockMap name), (.int 2, pastedStore name), (.int 3, blockMap "c")]
  next := .int 4

theorem ofTemplates_pasted : (pasted "a").OfTemplates fun _ => True := by
  have h : pasted "a" = ((((((({} : Graph).perform (.newMap (.str "a"))).2.perform
      (.newStore (.str "st") (.str pastedSource))).2).perform (.newMap (.str "c"))).2).perform
      (.setInputs (.int 2) (.list [.str "a"]))).2 := by rfl
  rw [h]
  exact .setInputs _ _ (.newMap _ (.newStore _ _ trivial (.newMap _ .empty)))

theorem acyclic_pasted : (pasted "a").Acyclic := by
  refine acyclic_of_reads (a := "a") (b := "st") (by decide) ?_
  rintro x y ⟨hx, e, he, rfl, hinput⟩
  simp only [pasted, List.mem_cons, List.not_mem_nil, or_false] at he
  obtain rfl | rfl | rfl := he
  · rw [Json.str.inj (List.mem_singleton.mp hinput)] at hx
    exact absurd hx (by decide)
  · exact ⟨Json.str.inj (List.mem_singleton.mp hinput), rfl⟩
  · rw [Json.str.inj (List.mem_singleton.mp hinput)] at hx
    exact absurd hx (by decide)

theorem rename_pasted : (pasted "a").rename (.int 1) (.str "b") =
    (.ok (.renamed "a" "b"), pasted "b") := by
  have hcode : Handler.rename (Module.mapTemplate "a") "a" "b" = Module.mapTemplate "b" :=
    Handler.rename_text (f := .map) "b" trivial (by decide)
  rw [rename_of_free (m := blockMap "a") rfl rfl (by decide) (by decide)]
  simp only [blockMap, hcode]
  rfl

section Pasted

variable {name : String} (hg : (pasted name).WellNamed)

include hg

theorem resolves_pasted : ∀ e ∈ (pasted name).entries, (pasted name).Resolves e.2 := by
  have hblock : (pasted name).find? (.str blockName) = none :=
    find?_eq_none_iff.mpr fun hmem => (hg.valid _ hmem).2 rfl
  have hname : ((pasted name).find? (.str name)).isSome := by simp [find?, pasted, blockMap]
  intro e he
  simp only [pasted, List.mem_cons, List.not_mem_nil, or_false] at he
  obtain rfl | rfl | rfl := he
  · simp [Resolves, blockMap, resolve?, hblock]
  · obtain ⟨e, he⟩ := Option.isSome_iff_exists.mp hname
    simp [Resolves, pastedStore, resolve?, he]
  · simp [Resolves, blockMap, resolve?, hblock]

/-- The script of the graph comes to the definition of the function of the store, with the map
bound, and then to the map behind. -/
theorem script_pasted (h : Identifier name) (hconstant : name ≠ Script.constantName)
    (hfree : name ≠ "add_sfn") (fuel : Nat) :
    ∃ script unit m, (pasted name).script = .ok script ∧ Script.compile script = .ok unit ∧
      Script.splitResult unit = (unit, none) ∧
      Flow.sequence (Script.exec (fuel + 7) none) unit (Machine.restored {}) =
        Flow.sequence (Script.exec (fuel + 7) none) [pastedDefinition,
          .expr (Script.registrationCall (blockMap "c") ((pasted name).sources [.str blockName])),
          HandlerForm.map.definition "c"] m ∧
      m.HasHandlers [name] ∧ (pasted name).registry =
        m.registry.put ((pasted name).registered (blockMap "c")) := by
  have hparses : Script.parseProgram (Module.storeTemplate "st" pastedSource) =
      .ok [pastedDefinition] :=
    Script.parseProgram_of_tokens [.keyword "def", .name "st", .op "(", .name "x", .op "=",
      .name "a", .op ")", .op ":", .op "(", .str (.ofString ", s):\n    s.set(x=a): ("), .op ")",
      .newline] rfl rfl
  let map {n : String} (hn : Identifier n) (hmem : n ∈ (pasted name).names) : Draft :=
    draft hg (m := blockMap n) hmem
      (HandlerForm.notMem_text (f := .map) trivial hn (by decide) (by decide))
      (HandlerForm.parseProgram_text (f := .map) trivial hn)
  let first := map h (by simp [pasted, names, blockMap])
  let store := draft hg (m := pastedStore name) (by simp [pasted, names, pastedStore])
    (by simp [Module.storeTemplate, pastedSource]) hparses
  let last := map (show Identifier "c" by decide) (by simp [pasted, names, blockMap])
  have hscript :
      (pasted name).script = .ok (String.join ([first, store, last].map Draft.text)) := by
    have hfirst : first.text = (pasted name).part (blockMap name) := draft_text _ _ _ _ rfl
    have hstore : store.text = (pasted name).part (pastedStore name) := draft_text _ _ _ _ rfl
    have hlast : last.text = (pasted name).part (blockMap "c") := draft_text _ _ _ _ rfl
    rw [List.map_cons, List.map_cons, List.map_singleton, hfirst, hstore, hlast]
    refine script_eq_ok fun e he => ⟨resolves_pasted hg e he, ?_⟩
    simp only [pasted, List.mem_cons, List.not_mem_nil, or_false] at he
    obtain rfl | rfl | rfl := he <;> exact ⟨_, rfl⟩
  have hplaced : ∀ p ∈ [first, store, last], Script.arePlaced false false p.program = true := by
    simp only [List.forall_mem_cons, List.not_mem_nil, false_implies, implies_true, and_true]
    exact ⟨HandlerForm.arePlaced_definition.mpr ⟨hconstant, trivial⟩,
      show Script.arePlaced false false [pastedDefinition] = true by decide,
      HandlerForm.arePlaced_definition.mpr ⟨by decide, trivial⟩⟩
  have hunit := (Script.compile_drafts [first, store, last]).mpr ⟨rfl, hplaced⟩
  obtain ⟨m₁, hrun₁, h₁, hregistry₁⟩ :=
    Script.sequence_unit fuel .empty (p := first) ⟨.map, rfl⟩ (by simp)
  obtain ⟨m, hrun, hm, hregistry⟩ := h₁.register fuel store.named store.sourcesNamed
    (List.mem_singleton.not.mpr hfree.symm)
  refine ⟨_, _, m, hscript, hunit, rfl, ?_, hm, ?_⟩
  · rw [List.flatMap_cons, hrun₁]
    simp only [List.flatMap_cons, List.flatMap_nil, Draft.unit, List.cons_append, Flow.sequence,
      Script.bind_apply, hrun]
    rfl
  · rw [hregistry, hregistry₁]
    exact (Script.Registry.foldl_put_append (r := []) (nodup_registry hg)).symm

end Pasted

theorem builds_pasted (hg : (pasted "a").WellNamed) :
    ∃ entries, (pasted "a").Builds 1000 (.empty .none) entries := by
  obtain ⟨script, unit, m, hscript, hunit, hsplit, hrun, hm, hregistry⟩ :=
    script_pasted hg (by decide) (by decide) (by decide) 993
  obtain ⟨f, -, -, -, hbound, -⟩ := hm.bound "a" (by simp)
  have hread : Script.eval 999 none (.name "a") m = (.value (.function f), m) := by
    rw [Script.eval, Machine.nameValue_of_bound hbound]
  obtain ⟨m', hdefine, hscope, hnames, hintact, hregistry'⟩ : ∃ m' : Machine,
      Script.exec 1000 none pastedDefinition m = (.value .next, m') ∧
      (∀ name, name ≠ "st" → Script.bound? m'.scope name = Script.bound? m.scope name) ∧
      m'.names = m.names ∧ m'.store.Intact ∧ m'.registry = m.registry := by
    simp only [pastedDefinition, Script.exec, Script.bind_apply,
      List.filterMap_cons, List.filterMap_nil, Script.Run.each, hread]
    refine ⟨_, rfl, fun name hname => ?_, rfl, hm.intact, rfl⟩
    rw [Script.bound?_bind, if_neg hname]
  have hnamed : ∀ source ∈ (pasted "a").sources [.str blockName], Script.Named source :=
    named_sources hg
  have hname : (blockMap "c").name ≠ "" := by decide
  have hregister := Script.exec_registration 993 (m := m') hname hnamed
    ((hscope _ (by decide)).trans (hm.unbound _ (by decide) (by decide))) (hnames.trans hm.names)
    (hintact.offers rfl)
  obtain ⟨m'', hlast, hunbound, hoffered, hregistry''⟩ : ∃ m'' : Machine,
      Flow.sequence (Script.exec 1000 none) unit (Machine.restored {}) = (.value .next, m'') ∧
      Script.bound? m''.scope "codegen" = none ∧ m''.store.Offers .manifest ∧
      m''.registry = (pasted "a").registry := by
    rw [hrun]
    simp only [Flow.sequence, Script.bind_apply, hdefine, hregister,
      HandlerForm.map.exec_definition 999]
    refine ⟨_, rfl, ?_, (hintact.registrationStore _ _).offers rfl,
      by rw [hregistry, ← hregistry']; rfl⟩
    rw [Script.bound?_bind]
    exact (hscope _ (by decide)).trans (hm.unbound _ (by decide) (by decide))
  obtain ⟨placed, -, hbuilds⟩ := builds_of_run (.empty .none) hg (resolves_pasted hg)
    acyclic_pasted hscript hunit (Script.evalProgram_of_sequence _ hsplit hlast) hunbound
    hoffered hregistry''
  exact ⟨_, (hbuilds _).mpr rfl⟩

theorem not_builds_pasted (hg : (pasted "b").WellNamed) :
    ¬ ∃ entries, (pasted "b").Builds 1000 (.empty .none) entries := by
  rintro ⟨entries, hbuilds⟩
  obtain ⟨script, unit, m, hscript, hunit, hsplit, hrun, hm, -⟩ :=
    script_pasted hg (by decide) (by decide) (by decide) 993
  have hread : Script.eval 999 none (.name "a") m =
      (.raised (.fault (.undefinedName "a")), m) := by
    rw [Script.eval, Machine.nameValue_of_unbound (hm.unbound _ (by decide) (by decide)), hm.names,
      hm.intact.predefinedValue]
    rfl
  have hdefine : Script.exec 1000 none pastedDefinition m =
      (.raised (.fault (.undefinedName "a")), m) := by
    simp only [pastedDefinition, Script.exec, Script.bind_apply, List.filterMap_cons,
      List.filterMap_nil, Script.Run.each, hread]
  exact not_builds_of_raises _ hscript hunit (Script.evalProgram_of_sequence_raised _ hsplit
    (hrun.trans (Script.bind_raised hdefine))) entries hbuilds

/-- A rename may give a module the name of the function that a build calls, or take the name away
that the text of a source reads. Neither graph is built any more. -/
theorem rename_breaks_build :
    (starter.OfTemplates (fun source => Identifier source.plain) ∧
      (∀ n ∈ starter.names, Identifier n) ∧ starter.Acyclic ∧
      (∃ entries, starter.Builds 1000 (.empty .none) entries) ∧
      (starter.rename (.int 1) (.str "codegen")).1 = .ok (.renamed "foo" "codegen") ∧
      Identifier "codegen" ∧
      ¬ ∃ entries, (starter.rename (.int 1) (.str "codegen")).2.Builds 1000 (.empty .none)
        entries) ∧
    ((pasted "a").OfTemplates (fun _ => True) ∧
      (∀ n ∈ (pasted "a").names, Identifier n) ∧ (pasted "a").Acyclic ∧
      (∃ entries, (pasted "a").Builds 1000 (.empty .none) entries) ∧
      ((pasted "a").rename (.int 1) (.str "b")).1 = .ok (.renamed "a" "b") ∧ Identifier "b" ∧
      ¬ ∃ entries, ((pasted "a").rename (.int 1) (.str "b")).2.Builds 1000 (.empty .none)
        entries) := by
  constructor
  · refine ⟨ofTemplates_starter, plain_starter.names, acyclic_starter, builds_starter, rfl,
      by decide, ?_⟩
    rintro ⟨entries, hbuilds⟩
    rw [rename_of_free (m := blockMap "foo") rfl rfl (by decide) (by decide)] at hbuilds
    have hfoo : starter.lookup (.int 1) = .ok (.int 1, blockMap "foo") := rfl
    have hvalid : ValidName "codegen" := by decide
    have hr := renames_of_rename plain_starter.wellNamed hfoo rfl hvalid (by decide)
    obtain ⟨hfits, -⟩ := ((plain_starter.renamed hr (by decide)).builds_spec
      (show 7 ≤ 1000 by decide) (.empty .none)).2 entries hbuilds
    exact hfits.unnamed (by decide)
  · have hg := ofTemplates_pasted.reachable.wellNamed
    have hg' : (pasted "b").WellNamed := ⟨by decide, by decide⟩
    refine ⟨ofTemplates_pasted, by decide, acyclic_pasted, builds_pasted hg, ?_, by decide, ?_⟩
    · rw [rename_pasted]
    · rw [rename_pasted]
      exact not_builds_pasted hg'

end Graph

end BlockWorkbench
