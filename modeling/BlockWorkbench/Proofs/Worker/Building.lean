import BlockWorkbench.Proofs.GraphRegistry
import BlockWorkbench.Proofs.Script.Handlers
import BlockWorkbench.Proofs.Worker.Failing

/-!
From a graph to its manifest. A cleared worker that runs the script of a graph, once or any number
of times, registers the modules of the graph, and a build then writes the manifest that lists them.
-/

namespace BlockWorkbench

namespace ExecutionWorker

open Script (HandlerForm Identifier Value Machine Program Registers Registry Registration
  compileSource compileSource_str predefinedNames)

/-- A worker that ran a unit, which makes the registrations `rs`, `k` times since it was cleared. -/
structure Ran (unit : Program) (rs : Registry) (k : Nat) (w : ExecutionWorker) : Prop where
  untouched : w.machine.Untouched
  unit : w.unit = (List.replicate k unit).flatten
  registry : w.machine.registry = if k = 0 then [] else rs

variable (fuel : Nat) (cache : BlockCache Value) {w : ExecutionWorker}
variable {unit : Program} {rs : Registry} {k : Nat} {source : Json}

theorem ran_reset (h : w.machine.store.Intact) : Ran unit rs 0
    (step fuel cache w (.resetScope (.bool true) (.bool true))).worker := by
  rw [worker_step]
  exact ⟨⟨fun _ _ _ => rfl, fun _ => h.offers⟩, rfl, rfl⟩

/-- Another run of the unit succeeds and leaves the registry of the first. -/
theorem Ran.evaluate (h : Ran unit rs k w) (hsource : compileSource source = .ok unit)
    (hunit : Registers unit rs) (hrs : (rs.map (·.name)).Nodup) :
    (step (fuel + 7) cache w (.evaluate source)).messages = [.text (.str "Result: None")] ∧
      Ran unit rs (k + 1) (step (fuel + 7) cache w (.evaluate source)).worker := by
  have hmerged : w.unit ++ unit = (List.replicate (k + 1) unit).flatten := by
    rw [h.unit, List.replicate_succ', List.flatten_append, List.flatten_singleton]
  obtain ⟨m, hrun, huntouched, hregistry⟩ :=
    (hunit.replicate (k + 1)).evalProgram fuel h.untouched
  have hkept : m.registry = rs := by
    rw [hregistry, h.registry]
    split_ifs with hk
    · exact Registry.foldl_put_replicate hrs k
    · refine Registry.foldl_put_of_subset hrs fun r hr => ?_
      obtain ⟨l, hl, hr⟩ := List.mem_flatten.mp hr
      exact List.eq_of_mem_replicate hl ▸ hr
  have hevaluate : w.evaluate (fuel + 7) source =
      .say ⟨m, (List.replicate (k + 1) unit).flatten⟩ "Result: None" := by
    simp only [ExecutionWorker.evaluate, hsource, hmerged, Machine.evalUnit_eq_settle, hrun]
    rfl
  rw [messages_step, worker_step, handle, hevaluate]
  exact ⟨rfl, huntouched, rfl, by rw [if_neg k.succ_ne_zero]; exact hkept⟩

theorem Ran.transcript (h : Ran unit rs k w) (hsource : compileSource source = .ok unit)
    (hunit : Registers unit rs) (hrs : (rs.map (·.name)).Nodup) (n : Nat)
    (rest : List (Message Value)) : ∃ w', Ran unit rs (k + n) w' ∧
      (Handled.transcript (step (fuel + 7) cache) w
        (List.replicate n (.evaluate source) ++ rest)).flatMap (·.messages) =
      List.replicate n (.text (.str "Result: None")) ++
        (Handled.transcript (step (fuel + 7) cache) w' rest).flatMap (·.messages) := by
  induction n generalizing k w with
  | zero => exact ⟨w, h, rfl⟩
  | succ n ih =>
      obtain ⟨hmessages, hnext⟩ := h.evaluate fuel cache hsource hunit hrs
      obtain ⟨w', hw', hrest⟩ := ih hnext
      refine ⟨w', by rwa [Nat.add_assoc, Nat.add_comm 1] at hw', ?_⟩
      rw [List.replicate_succ, List.cons_append, Handled.transcript, List.flatMap_cons, hmessages,
        hrest, List.replicate_succ]
      rfl

theorem defines_starter : ∀ e ∈ Graph.starter.entries, e.2.Defines := by
  intro e he
  simp only [Graph.starter, List.mem_cons, List.not_mem_nil, or_false] at he
  obtain rfl | rfl := he
  · refine ⟨_, _, rfl, (HandlerForm.compile_text_eq_ok (f := .map) trivial (by decide)).mpr
      ⟨rfl, by decide, trivial⟩, ?_⟩
    simp [HandlerForm.definition, HandlerForm.params, Script.Stmt.IsPlain, Script.engineNames,
      predefinedNames]
  · refine ⟨_, _, rfl, (HandlerForm.compile_text_eq_ok (f := .store "foo")
      (show Identifier "foo" by decide) (by decide)).mpr ⟨rfl, by decide, by decide, by decide⟩, ?_⟩
    simp [HandlerForm.definition, HandlerForm.params, Script.Stmt.IsPlain, Script.engineNames,
      predefinedNames]

/-- A map whose code defines a function in the place of the predefined names. -/
def masking : Module :=
  { kind := .map, name := "a", code := .str "def __builtins__(): pass\n" }

/-- A graph with a module behind it. -/
def masked : Graph where
  entries := [(.int 1, masking), (.int 2, { kind := .map, name := "b" })]
  next := .int 3

theorem reachable_masked : masked.Reachable := by
  have h : masked = (((({} : Graph).perform (.insert masking.definition)).2).perform
      (.insert ({ kind := .map, name := "b" } : Module).definition)).2 := by rfl
  rw [h]
  exact .perform _ (.perform _ .empty)

/-- The two modules as they stand in the script. -/
def maskedParts : List Script.Part := [
  { module := masking
    sources := []
    code := "def __builtins__(): pass\n"
    program := [.define predefinedNames [] [.pass]]
    named := by decide
    sourcesNamed := by simp
    compiles := Script.compile_of_tokens [.keyword "def", .name predefinedNames, .op "(", .op ")",
      .op ":", .keyword "pass", .newline] (by decide) rfl rfl rfl },
  { module := { kind := .map, name := "b" }
    sources := []
    code := ""
    program := []
    named := by decide
    sourcesNamed := by simp
    compiles := by cbv }]

end ExecutionWorker

end BlockWorkbench
