import BlockWorkbench.Proofs.Script.Sparing
import BlockWorkbench.Proofs.Worker.Reached
import BlockWorkbench.Proofs.Worker.Writing

/-!
Scripts that fail. Such a script is not kept, and what it registered before it failed is: a build
behind it says what the registry that it leaves gives. It says the same as a build before it exactly
as far as the script has left the registry alone.
-/

namespace BlockWorkbench

namespace Script

variable {α β : Type}

/-- What `x` does to the registry is to put registrations into it. -/
def Run.Records (x : Run α) : Prop :=
  ∀ m, ∃ rs : List Registration, (x m).2.registry = rs.foldl Registry.put m.registry

theorem Run.Records.of_same {x : Run α} (h : ∀ m, (x m).2.registry = m.registry) : x.Records :=
  fun m => ⟨[], h m⟩

theorem Run.Records.bind {x : Run α} {f : α → Run β} (hx : x.Records)
    (hf : ∀ a, (f a).Records) : (x >>= f).Records := by
  intro m
  obtain ⟨rs, hrs⟩ := hx m
  rw [bind_apply]
  cases hxm : x m with | mk out m' =>
  rw [hxm] at hrs
  cases out with
  | value a =>
      obtain ⟨more, hmore⟩ := hf a m'
      exact ⟨rs ++ more, by rw [List.foldl_append, ← hrs]; exact hmore⟩
  | raised r => exact ⟨rs, hrs⟩
  | exhausted => exact ⟨rs, hrs⟩

theorem respected_records : Respected (fun _ => True) (fun _ => True) fun x _ => x.Records where
  ofBinds := id
  inCall _ := trivial
  value _ := .of_same fun _ => rfl
  raised _ := .of_same fun _ => rfl
  exhausted _ := .of_same fun _ => rfl
  bind := Run.Records.bind
  nested := by
    intro α x _ hx m
    unfold Run.nested
    split
    · exact ⟨[], rfl⟩
    · exact hx { m with depth := m.depth + 1 }
  ask question := .of_same fun m => by
    unfold Run.ask
    split <;> rfl
  act step := .of_same fun m => by
    unfold Run.act
    split <;> rfl
  nameValue _ name := .of_same fun m => by
    unfold Run.nameValue
    split <;> rfl
  bindName {place} _ name v := .of_same fun m => by
    cases place <;> rfl
  makeFunction _ _ _ _ _ := .of_same fun _ => rfl
  register kind spec := by
    intro m
    unfold registerModule
    split
    · rename_i registry h
      obtain ⟨r, -, hr⟩ := bind_eq_ok.mp h
      exact ⟨[r], by cases hr; rfl⟩
    · exact ⟨[], rfl⟩
  manifest callee := .of_same fun m => by
    rw [callManifest_nil]
    cases m.registry.manifestText m.store <;> rfl

theorem records_evalProgram (fuel : Nat) (program : Program) :
    (evalProgram fuel program).Records := by
  unfold evalProgram
  refine .bind (.of_same fun _ => rfl) fun _ => ?_
  refine .bind (respected_records.runAll trivial le_rfl _) fun _ => ?_
  split
  · exact .bind (.of_same fun _ => rfl) fun _ => (respected_records.related le_rfl).eval trivial _
  · exact .of_same fun _ => rfl

end Script

namespace ExecutionWorker

open Script (Value Machine Program Registry Store bound? boundNames compileSource)

variable (fuel : Nat) (cache : BlockCache Value) (w : ExecutionWorker)

/-- What comes of a source that is run behind the unit. -/
def outcome (fuel : Nat) (source : Json) : Except Script.Failure Value × Machine :=
  match compileSource source with
  | .ok statements => w.machine.evalUnit fuel (w.unit ++ statements)
  | .error f => (.error f, w.machine)

/-- A script that fails is reported. What it did to names, objects and registry stays done, and it
does not become part of the unit. -/
theorem evaluate_failing {source : Json} {text : Points}
    (h : (w.outcome fuel source).1 = .error (.script text)) :
    w.evaluate fuel source =
      .say { w with machine := (w.outcome fuel source).2 } ("Result: Error: " ++ text) := by
  unfold outcome at h ⊢
  unfold evaluate
  cases hcompile : compileSource source with
  | error f =>
      rw [hcompile] at h
      cases h
      rfl
  | ok statements =>
      simp only [hcompile] at h ⊢
      cases heval : w.machine.evalUnit fuel (w.unit ++ statements) with | mk value m =>
      rw [heval] at h
      cases h
      rfl

theorem step_failing {source : Json} {text : Points}
    (h : (w.outcome fuel source).1 = .error (.script text)) :
    (step fuel cache w (.evaluate source)).worker =
        { w with machine := (w.outcome fuel source).2 } ∧
      (step fuel cache w (.evaluate source)).messages =
        [.text (.str ("Result: Error: " ++ text))] := by
  rw [worker_step, messages_step, handle, evaluate_failing fuel w h]
  exact ⟨rfl, rfl⟩

variable {fuel w} {source : Json}

/-- What a source does to the registry is to put registrations into it. -/
theorem records_outcome (fuel : Nat) (w : ExecutionWorker) (source : Json) :
    ∃ rs : List Script.Registration,
      (w.outcome fuel source).2.registry = rs.foldl Registry.put w.machine.registry := by
  unfold outcome
  split
  · rw [Machine.evalUnit_snd]
    exact Script.records_evalProgram fuel _ w.machine
  · exact ⟨[], rfl⟩

/-- A name that neither the unit nor a source binds at top level is not bound behind the source. -/
theorem spares_outcome {name : String} (hname : name ≠ Script.predefinedNames)
    (hscope : bound? w.machine.scope name = none)
    (hunit : name ∉ boundNames w.unit)
    (hsource : ∀ statements, compileSource source = .ok statements →
      name ∉ boundNames statements) :
    bound? (w.outcome fuel source).2.scope name = none := by
  unfold outcome
  split
  · rename_i statements hcompile
    have hmerged : name ∉ boundNames (w.unit ++ statements) := by
      rw [Script.boundNames_append, List.mem_append, not_or]
      exact ⟨hunit, hsource statements hcompile⟩
    rw [Machine.evalUnit_snd]
    exact Script.spares_evalProgram fuel hname hmerged w.machine hscope
  · exact hscope

/-- A script that binds a name and then fails. -/
def failingSource : Json := .str "x = 1\n1 / 0"

theorem compileSource_failing : compileSource failingSource =
    .ok [.assign [.name "x"] (.int 1), .expr (.binary .div (.int 1) (.int 0))] :=
  Script.compileSource_str (Script.compile_of_tokens [.name "x", .op "=", .int 1, .newline, .int 1,
    .op "/", .int 0, .newline] (by decide) rfl rfl rfl)

theorem spares_failing (statements : Program) (h : compileSource failingSource = .ok statements) :
    "codegen" ∉ boundNames statements := by
  cases compileSource_failing.symm.trans h
  decide

theorem unreserved_failing : (Message.evaluate failingSource : Message Value).Unreserved := by
  intro unit hunit
  cases compileSource_failing.symm.trans hunit
  have hname : ¬Script.IsReserved "x" := by decide
  simpa [Script.Stmt.Unreserved, Script.Expr.Unreserved, Script.TargetsUnreserved,
    Script.Target.Unreserved] using hname

/-- A worker with a registered module. -/
def registeredWorker : ExecutionWorker :=
  { machine := { registry := [⟨.map, .ofString "a", .ofString "a", []⟩] } }

/-- Whether a script fails that does not bind the name of the function that a build calls, where that
name is not bound, and changes what a build says. -/
def ChangesBuild (w : ExecutionWorker) (source : Json) (before behind : String) : Prop :=
  bound? w.machine.scope "codegen" = none ∧
  (∀ statements, compileSource source = .ok statements → "codegen" ∉ boundNames statements) ∧
  (∃ text, (step 1000 (.empty .none) w (.evaluate source)).messages =
    [.text (.str ("Result: Error: " ++ text))]) ∧
  (step 1000 (.empty .none) w .build).messages = [.text (.str ("Build " ++ before))] ∧
  (step 1000 (.empty .none)
    (step 1000 (.empty .none) w (.evaluate source)).worker .build).messages =
      [.text (.str ("Build " ++ behind))] ∧
  before ≠ behind

/-- A script that registers a module and then fails. -/
def registeringSource : Json :=
  .str "add_mfn(\x7b\"name\": \"a\", \"handler\": \"a\"\x7d)\n1 / 0"

theorem compileSource_registering : compileSource registeringSource = .ok [
    .expr (.call (.name "add_mfn") [.dict [(.str (.ofString "name"), .str (.ofString "a")),
      (.str (.ofString "handler"), .str (.ofString "a"))]]),
    .expr (.binary .div (.int 1) (.int 0))] :=
  Script.compileSource_str (Script.compile_of_tokens [.name "add_mfn", .op "(", .op "\x7b",
    .str (.ofString "name"), .op ":", .str (.ofString "a"), .op ",", .str (.ofString "handler"),
    .op ":", .str (.ofString "a"), .op "\x7d", .op ")", .newline, .int 1, .op "/", .int 0,
    .newline] (by decide) rfl rfl rfl)

theorem spares_registering (statements : Program)
    (h : compileSource registeringSource = .ok statements) : "codegen" ∉ boundNames statements := by
  cases compileSource_registering.symm.trans h
  decide

def emptyManifest : String := "\x7b\n  \"modules\": []\n\x7d"

/-- The manifest of one map that reads nothing. -/
def loneManifest : String :=
  "\x7b\n  \"modules\": [\n    \x7b\n      \"name\": \"a\",\n      \"kind\": \"map\",\n" ++
    "      \"inputs\": [],\n      \"handler\": \"a\"\n    \x7d\n  ]\n\x7d"

theorem build_result (text : String) :
    Points.ofString "Build result: " ++ .ofString text =
      .ofString "Build " ++ .ofString ("result: " ++ text) := by
  simp [Points.ofString]

theorem changesBuild_registering :
    ChangesBuild {} registeringSource ("result: " ++ emptyManifest)
      ("result: " ++ loneManifest) := by
  have hfails : (outcome {} 1000 registeringSource).1 =
      .error (.script "ZeroDivisionError: division by zero") := by
    rw [outcome, compileSource_registering]
    rfl
  have hregistry : (outcome {} 1000 registeringSource).2.registry =
      [⟨.map, .ofString "a", .ofString "a", []⟩] := by
    rw [outcome, compileSource_registering]
    rfl
  obtain ⟨hworker, hmessages⟩ := step_failing 1000 (.empty .none) {} hfails
  refine ⟨rfl, spares_registering, ⟨_, hmessages⟩, ?_, ?_, by decide⟩
  · rw [← build_result]
    exact messages_build 998 _ (w := {}) rfl (Store.offers_default rfl) (by cbv)
  · rw [hworker, ← build_result]
    refine messages_build 998 _ (spares_outcome (by decide) rfl (by decide) spares_registering)
      ?_ ?_
    · rw [outcome, compileSource_registering]
      rfl
    rw [hregistry, Registry.manifestText_congr (s := {}) (by simp [Registry.inputNames])]
    cbv

/-- A worker whose unit binds the name of the function that a build calls, and whose names were
cleared since. -/
def unitBindsCodegen : ExecutionWorker := { unit := [.assign [.name "codegen"] (.int 1)] }

theorem after_unitBindsCodegen : Handled.after (step 1000 (.empty .none)) {}
    [.evaluate (.str "codegen = 1"), .resetScope (.bool true) (.bool false)] =
      unitBindsCodegen := by
  have hcompile : compileSource (.str "codegen = 1") = .ok unitBindsCodegen.unit :=
    Script.compileSource_str (Script.compile_of_tokens [.name "codegen", .op "=", .int 1, .newline]
      (by decide) rfl rfl rfl)
  simp only [Handled.after, List.foldl_cons, List.foldl_nil, worker_step, handle, evaluate,
    hcompile]
  rfl

theorem changesBuild_behind_unitBindsCodegen :
    ChangesBuild unitBindsCodegen failingSource ("result: " ++ emptyManifest)
      "error: TypeError: 'int' object is not callable" := by
  have hfails : (unitBindsCodegen.outcome 1000 failingSource).1 =
      .error (.script "ZeroDivisionError: division by zero") := by
    rw [outcome, compileSource_failing]
    rfl
  obtain ⟨hworker, hmessages⟩ := step_failing 1000 (.empty .none) _ hfails
  refine ⟨rfl, spares_failing, ⟨_, hmessages⟩, ?_, ?_, by decide⟩
  · rw [← build_result]
    exact messages_build 998 _ (w := unitBindsCodegen) rfl (Store.offers_default rfl) (by cbv)
  · rw [hworker, outcome, compileSource_failing, messages_step]
    simp only [handle, build, Machine.evalSource, compileSource_build]
    rfl

/-- A script that puts something else in the place of the function that a build calls, among the
predefined names, and then fails. -/
def replacingSource : Json := .str "__builtins__[\"codegen\"] = 1\n1 / 0"

theorem compileSource_replacing : compileSource replacingSource = .ok [
    .assign [.index (.name "__builtins__") (.str (.ofString "codegen"))] (.int 1),
    .expr (.binary .div (.int 1) (.int 0))] :=
  Script.compileSource_str (Script.compile_of_tokens [.name "__builtins__", .op "[",
    .str (.ofString "codegen"), .op "]", .op "=", .int 1, .newline, .int 1, .op "/", .int 0,
    .newline] (by decide) rfl rfl rfl)

theorem spares_replacing (statements : Program)
    (h : compileSource replacingSource = .ok statements) : "codegen" ∉ boundNames statements := by
  cases compileSource_replacing.symm.trans h
  decide

theorem changesBuild_replacing :
    ChangesBuild {} replacingSource ("result: " ++ emptyManifest)
      "error: TypeError: 'int' object is not callable" := by
  have hfails : (outcome {} 1000 replacingSource).1 =
      .error (.script "ZeroDivisionError: division by zero") := by
    rw [outcome, compileSource_replacing]
    rfl
  obtain ⟨hworker, hmessages⟩ := step_failing 1000 (.empty .none) {} hfails
  refine ⟨rfl, spares_replacing, ⟨_, hmessages⟩, ?_, ?_, by decide⟩
  · rw [← build_result]
    exact messages_build 998 _ (w := {}) rfl (Store.offers_default rfl) (by cbv)
  · rw [hworker, outcome, compileSource_replacing, messages_step]
    simp only [handle, build, Machine.evalSource, compileSource_build]
    rfl

end ExecutionWorker

end BlockWorkbench
