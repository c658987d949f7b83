import BlockWorkbench.Proofs.Script.Compiling
import BlockWorkbench.Proofs.Script.Data
import BlockWorkbench.Proofs.Script.Fuel
import BlockWorkbench.Proofs.Script.Names
import BlockWorkbench.Proofs.Worker.Accumulation

/-!
What comes of a script that is just a name. Like every script it runs behind the unit, so it shows
the value that the unit leaves bound to the name, which is the value bound before only if the unit
leaves the names that users see, and what they stand for, as they were.
-/

namespace BlockWorkbench

namespace Script

/-- What users see of a name: it does not begin with two underscores. -/
theorem bound?_filter_visible {bindings : List (String × Value)} {name : String} :
    bound? (bindings.filter fun b => !"__".isPrefixOf b.1) name =
      if "__".isPrefixOf name then none else bound? bindings name := by
  simp only [bound?, List.find?_filter]
  split
  · rename_i hname
    simp only [Option.map_eq_none_iff, List.find?_eq_none]
    intro b _
    obtain rfl | hb := eq_or_ne b.1 name
    · simp [hname]
    · simp [hb]
  · rename_i hname
    congr 2
    funext b
    obtain rfl | hb := eq_or_ne b.1 name
    · simp [hname]
    · simp [hb]

theorem Store.literal_int (s : Store) (n : Int) : s.literal (.int n) = integerText n := rfl

namespace Machine

variable (m : Machine) (fuel : Nat) {name : String}

/-- What the engine makes of something that a unit raised. -/
def failureOf : Raised → Failure
  | .fault f => if f.kind = .script then .script f.text else m.store.failureOf f.toError
  | r => m.store.failureOf (m.store.errorOf r)

/-- A unit run again from its start. -/
def rerun (unit : Program) : Outcome Unit × Machine :=
  (do Run.restoreNames; runAll fuel unit : Run Unit) m

theorem bound?_bindings :
    bound? m.bindings name = if "__".isPrefixOf name then none else bound? m.scope name :=
  bound?_filter_visible

/-- A unit run again leaves the names that were bound bound. -/
theorem bound?_rerun {unit : Program} {m' : Machine} {out : Outcome Unit}
    (hrun : m.rerun fuel unit = (out, m')) (h : (bound? m.bindings name).isSome) :
    (bound? m'.bindings name).isSome := by
  rw [bound?_bindings] at h ⊢
  split
  · simp_all
  · rename_i hname
    rw [if_neg hname] at h
    have hne : name ≠ predefinedNames := by
      rintro rfl
      exact hname (by cbv)
    have hkept := keepsNames_runAll fuel unit m.restored name (by rwa [bound?_restored _ hne])
    rw [show runAll fuel unit m.restored = (out, m') from hrun] at hkept
    exact hkept

/-- What the engine gives for what came of a program. -/
def settle : Outcome Value × Machine → Except Failure Value × Machine
  | (.value v, m) => (.ok v, m)
  | (.raised r, m) => (.error (m.failureOf r), m)
  | (.exhausted, m) => (.error .unfinished, m)

theorem evalUnit_eq_settle (unit : Program) :
    m.evalUnit fuel unit = settle (evalProgram fuel unit m) := by
  unfold evalUnit
  cases evalProgram fuel unit m with | mk out m' =>
  cases out with
  | value v => rfl
  | raised r =>
      cases r with
      | error a => rfl
      | fault f =>
          simp only [settle, failureOf]
          split <;> rfl
  | exhausted => rfl

theorem evalProgram_append_expr (unit : Program) (e : Expr) :
    evalProgram fuel (unit ++ [.expr e]) m = match m.rerun fuel unit with
      | (.value _, m) => eval fuel none e { m with names := m.namesAtHand }
      | (.raised r, m) => (.raised r, m)
      | (.exhausted, m) => (.exhausted, m) := by
  have hsplit : splitResult (unit ++ [.expr e]) = (unit, some e) := by simp [splitResult]
  simp only [evalProgram, hsplit, rerun, bind_apply, restoreNames_apply]
  cases runAll fuel unit _ with | mk out m' =>
  cases out <;> rfl

/-- A unit run again and a name behind it, if the name was bound. -/
theorem evalUnit_append_name {unit : Program} {m' : Machine} {v : Value}
    (hrun : m.rerun (fuel + 1) unit = (.value (), m')) (h : bound? m'.scope name = some v) :
    m.evalUnit (fuel + 1) (unit ++ [.expr (.name name)]) =
      (.ok v, { m' with names := m'.namesAtHand }) := by
  rw [evalUnit_eq_settle, evalProgram_append_expr, hrun]
  simp [eval, Run.nameValue, valueOf, globalValue, h, settle]

end Machine

end Script

namespace ExecutionWorker

open Script (Value Machine Store compileSource compileSource_str integerText_digit bound?)

variable (fuel : Nat) (cache : BlockCache Value) (w : ExecutionWorker) {source : Json} {name : String}

/-- The value that a script shows which is just a name. -/
theorem evaluate_name (hsource : compileSource source = .ok [.expr (.name name)]) {m : Machine}
    (hrun : w.machine.rerun (fuel + 1) w.unit = (.value (), m)) {v : Value}
    (hv : bound? m.bindings name = some v) :
    w.evaluate (fuel + 1) source = sayText ⟨{ m with names := m.namesAtHand },
      w.unit ++ [.expr (.name name)]⟩ "Result: " ((m.store.literal v).map .ofString) := by
  have hscope : bound? m.scope name = some v := by
    rw [Machine.bound?_bindings] at hv
    split at hv
    · cases hv
    · exact hv
  simp only [evaluate, hsource, Machine.evalUnit_append_name _ _ hrun hscope]

theorem evaluate_name_raised (hsource : compileSource source = .ok [.expr (.name name)])
    {m : Machine} {r : Script.Raised} (hrun : w.machine.rerun fuel w.unit = (.raised r, m)) :
    w.evaluate fuel source =
      sayFailure { w with machine := m } "Result: Error: " (m.failureOf r) := by
  simp only [evaluate, hsource, Machine.evalUnit_eq_settle, Machine.evalProgram_append_expr, hrun,
    Machine.settle]

/-- A script that is just a name runs the unit again. Where that succeeds, what it leaves is kept,
and the value is shown that it leaves bound to the name. -/
theorem step_name (hsource : compileSource source = .ok [.expr (.name name)])
    (hbound : (bound? w.machine.bindings name).isSome) {m : Machine}
    (hrun : w.machine.rerun (fuel + 1) w.unit = (.value (), m)) :
    (step (fuel + 1) cache w (.evaluate source)).worker.machine =
      { m with names := m.namesAtHand } ∧
    ∀ v, bound? m.bindings name = some v → ∀ text, m.store.literal v = .ok text →
      (step (fuel + 1) cache w (.evaluate source)).messages =
        [.text (.str ("Result: " ++ text))] := by
  obtain ⟨v, hv⟩ := Option.isSome_iff_exists.mp (Machine.bound?_rerun _ _ hrun hbound)
  have hevaluate := evaluate_name fuel w hsource hrun hv
  rw [messages_step, worker_step, handle, hevaluate, worker_sayText]
  refine ⟨rfl, fun v' hv' text htext => ?_⟩
  cases hv.symm.trans hv'
  simp [htext, sayText, Handled.say]

/-- Where running the unit again fails, a script that is just a name fails so too. -/
theorem step_name_raised (hsource : compileSource source = .ok [.expr (.name name)]) {m : Machine}
    {r : Script.Raised} (hrun : w.machine.rerun fuel w.unit = (.raised r, m)) :
    (step fuel cache w (.evaluate source)).worker.machine = m ∧
    ∀ text, m.failureOf r = .script text → (step fuel cache w (.evaluate source)).messages =
      [.text (.str ("Result: Error: " ++ text))] := by
  rw [messages_step, worker_step, handle, evaluate_name_raised fuel w hsource hrun,
    worker_sayFailure]
  refine ⟨rfl, fun text htext => ?_⟩
  simp [htext, sayFailure, Handled.say]

/-- A script that is just a name which users see bound runs the unit again, and leaves the names
that users see and all objects as that leaves them. It shows the value that is then bound to the
name; where running the unit again fails, it fails so too. So where that run leaves names and
objects as they were, as that of the empty unit does, the value shown is the one that was bound, and
nothing changes. -/
theorem reading_is_rerunning (fuel : Nat) (cache : BlockCache Value) (w : ExecutionWorker)
    (source : Json) (name : String) (v : Value)
    (hsource : compileSource source = .ok [.expr (.name name)])
    (hbound : bound? w.machine.bindings name = some v) :
    let answer := step (fuel + 1) cache w (.evaluate source)
    (∀ m, w.machine.rerun (fuel + 1) w.unit = (.value (), m) →
      answer.worker.machine.bindings = m.bindings ∧ answer.worker.machine.store = m.store ∧
      ∀ v', bound? m.bindings name = some v' → ∀ text, m.store.literal v' = .ok text →
        answer.messages = [.text (.str ("Result: " ++ text))]) ∧
    (∀ r m, w.machine.rerun (fuel + 1) w.unit = (.raised r, m) →
      answer.worker.machine.bindings = m.bindings ∧ answer.worker.machine.store = m.store ∧
      ∀ text, m.failureOf r = .script text →
        answer.messages = [.text (.str ("Result: Error: " ++ text))]) ∧
    ((w.unit = [] ∨ ∃ m, w.machine.rerun (fuel + 1) w.unit = (.value (), m) ∧
        m.bindings = w.machine.bindings ∧ m.store = w.machine.store) →
      answer.worker.machine.bindings = w.machine.bindings ∧
      answer.worker.machine.store = w.machine.store ∧
      ∀ text, w.machine.store.literal v = .ok text →
        answer.messages = [.text (.str ("Result: " ++ text))]) := by
  have hsome : (bound? w.machine.bindings name).isSome := by simp [hbound]
  refine ⟨fun m hrun => ?_, fun r m hrun => ?_, fun hkept => ?_⟩
  · obtain ⟨hafter, hmessages⟩ := step_name fuel cache w hsource hsome hrun
    refine ⟨?_, ?_, hmessages⟩
    · rw [hafter]
      rfl
    · rw [hafter]
  · obtain ⟨hafter, hmessages⟩ := step_name_raised (fuel + 1) cache w hsource hrun
    exact ⟨congrArg Machine.bindings hafter, congrArg Machine.store hafter, hmessages⟩
  · obtain ⟨m, hrun, hbindings, hstore⟩ : ∃ m,
        w.machine.rerun (fuel + 1) w.unit = (.value (), m) ∧
          m.bindings = w.machine.bindings ∧ m.store = w.machine.store := by
      obtain hunit | h := hkept
      · exact ⟨w.machine.restored, by rw [hunit]; rfl, by simp, rfl⟩
      · exact h
    obtain ⟨hafter, hmessages⟩ := step_name fuel cache w hsource hsome hrun
    refine ⟨?_, ?_, fun text htext => ?_⟩
    · rw [hafter]
      exact hbindings
    · rw [hafter]
      exact hstore
    exact hmessages v (by rwa [hbindings]) text (by rwa [hstore])

/-- A name that is bound, and bound anew by a script that fails behind that. -/
def failedRebinding : List (Message Value) := [
  .evaluate (.str "y = 5"), .evaluate (.str "y = 6\n1 / 0")]

/-- What is kept of it: the name as the second script left it, and the first script. -/
def rebound : ExecutionWorker :=
  { machine := { scope := [(Script.predefinedNames, .predefinedDict), ("y", .int 6)] }
    unit := [.assign [.name "y"] (.int 5)] }

/-- What the first script, run again, makes of it. -/
def reboundAgain : Machine :=
  { scope := [(Script.predefinedNames, .predefinedDict), ("y", .int 5)] }

theorem bound?_rebound : bound? rebound.machine.bindings "y" = some (.int 6) := by cbv

theorem bound?_reboundAgain : bound? reboundAgain.bindings "y" = some (.int 5) := by cbv

theorem after_failedRebinding :
    Handled.after (step 1000 (.empty .none)) {} failedRebinding = rebound := by
  have hfirst : compileSource (.str "y = 5") = .ok [.assign [.name "y"] (.int 5)] :=
    compileSource_str (Script.compile_of_tokens [.name "y", .op "=", .int 5, .newline]
      (by decide) rfl rfl rfl)
  have hsecond : compileSource (.str "y = 6\n1 / 0") =
      .ok [.assign [.name "y"] (.int 6), .expr (.binary .div (.int 1) (.int 0))] :=
    compileSource_str (Script.compile_of_tokens
      [.name "y", .op "=", .int 6, .newline, .int 1, .op "/", .int 0, .newline]
      (by decide) rfl rfl rfl)
  simp only [failedRebinding, Handled.after, List.foldl_cons, List.foldl_nil, worker_step, handle,
    evaluate, hfirst, hsecond]
  rfl

theorem reading_is_rerunning_rebound :
    compileSource (.str "y") = .ok [.expr (.name "y")] ∧
    bound? rebound.machine.bindings "y" = some (.int 6) ∧
    (step 1000 (.empty .none) rebound (.evaluate (.str "y"))).messages =
      [.text (.str "Result: 5")] := by
  have hsource : compileSource (.str "y") = .ok [.expr (.name "y")] :=
    compileSource_str (by cbv)
  obtain ⟨-, -, hmessages⟩ := (reading_is_rerunning 999 (.empty .none) rebound (.str "y") "y"
    (.int 6) hsource bound?_rebound).1 reboundAgain rfl
  refine ⟨hsource, bound?_rebound, hmessages (.int 5) bound?_reboundAgain "5" ?_⟩
  rw [Store.literal_int, integerText_digit (by decide)]
  rfl

/-- To read a name may show another value than the one that was bound to it, and bind it to that. -/
theorem reading_undoes_rebinding :
    let w := Handled.after (step 1000 (.empty .none)) {} failedRebinding
    let answer := step 1000 (.empty .none) w (.evaluate (.str "y"))
    compileSource (.str "y") = .ok [.expr (.name "y")] ∧
    bound? w.machine.bindings "y" = some (.int 6) ∧ w.machine.store.literal (.int 6) = .ok "6" ∧
    answer.messages = [.text (.str "Result: 5")] ∧
    bound? answer.worker.machine.bindings "y" = some (.int 5) := by
  have hsource : compileSource (.str "y") = .ok [.expr (.name "y")] :=
    compileSource_str (by cbv)
  rw [after_failedRebinding]
  have hevaluate := evaluate_name 999 rebound hsource (m := reboundAgain) rfl (v := .int 5)
    bound?_reboundAgain
  rw [Store.literal_int, integerText_digit (by decide)] at hevaluate
  refine ⟨hsource, bound?_rebound, ?_, ?_, ?_⟩
  · rw [Store.literal_int, integerText_digit (by decide)]
    rfl
  · rw [messages_step, handle, hevaluate]
    rfl
  · rw [worker_step, handle, hevaluate]
    exact bound?_reboundAgain

end ExecutionWorker

end BlockWorkbench
