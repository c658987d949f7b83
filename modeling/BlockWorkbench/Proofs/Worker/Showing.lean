import BlockWorkbench.Proofs.Json.Strings
import BlockWorkbench.Proofs.Script.Sparing
import BlockWorkbench.Proofs.Worker.Reading

/-!
What the result of a script shows. A script runs behind the unit, and what is shown is the end of
both together. That is the end of the script itself as long as it has a statement; a script
without any leaves the end of the unit, and so shows what an earlier script ended with.
-/

namespace BlockWorkbench

namespace Script.Machine

variable (fuel : Nat) (m : Machine)

/-- `text` is how the value of an expression is written that is evaluated behind a program. -/
def ShowsValue (program : Program) (e : Expr) (text : String) : Prop :=
  ∃ m₁ v m₂, m.rerun fuel program = (.value (), m₁) ∧
    eval fuel none e { m₁ with names := m₁.namesAtHand } = (.value v, m₂) ∧
    m₂.store.literal v = .ok text

/-- `text` is what is shown of a program that ends with no expression: that there is no value. -/
def ShowsNone (program : Program) (text : String) : Prop :=
  (∃ m₁, m.rerun fuel program = (.value (), m₁)) ∧ text = "None"

variable {fuel m} {program : Program} {v : Value} {m' : Machine}

theorem evalUnit_eq_ok : m.evalUnit fuel program = (.ok v, m') ↔
    evalProgram fuel program m = (.value v, m') := by
  rw [evalUnit_eq_settle]
  rcases evalProgram fuel program m with ⟨_ | r | _, m₁⟩ <;> simp [settle]

theorem splitResult_statement (h : ∀ before e, program ≠ before ++ [.expr e]) :
    splitResult program = (program, none) := by
  rcases splitResult_cases program with hsplit | ⟨before, e, rfl, -⟩
  · exact hsplit
  · exact absurd rfl (h before e)

theorem evalProgram_statement (h : ∀ before e, program ≠ before ++ [.expr e]) :
    evalProgram fuel program m = match m.rerun fuel program with
      | (.value _, m) => (.value .none, m)
      | (.raised r, m) => (.raised r, m)
      | (.exhausted, m) => (.exhausted, m) := by
  simp only [evalProgram, splitResult_statement h, rerun, bind_apply, Run.restoreNames]
  cases runAll fuel program _ with | mk out m₁ =>
  cases out <;> rfl

/-- A program that ends with an expression gives its value. -/
theorem shows_expr {e : Expr} {text : String}
    (h : m.evalUnit fuel (program ++ [.expr e]) = (.ok v, m'))
    (htext : m'.store.literal v = .ok text) : m.ShowsValue fuel program e text := by
  rw [evalUnit_eq_ok, evalProgram_append_expr] at h
  cases hrun : m.rerun fuel program with | mk out m₁ =>
  rw [hrun] at h
  cases out with
  | value _ => exact ⟨m₁, v, m', hrun, h, htext⟩
  | raised r => cases h
  | exhausted => cases h

/-- A program that ends with another statement, or has none, gives no value. -/
theorem shows_statement {text : String} (hend : ∀ before e, program ≠ before ++ [.expr e])
    (h : m.evalUnit fuel program = (.ok v, m')) (htext : m'.store.literal v = .ok text) :
    m.ShowsNone fuel program text := by
  rw [evalUnit_eq_ok, evalProgram_statement hend] at h
  cases hrun : m.rerun fuel program with | mk out m₁ =>
  rw [hrun] at h
  cases out with
  | value _ =>
      cases h
      cases htext
      exact ⟨⟨_, hrun⟩, rfl⟩
  | raised r => cases h
  | exhausted => cases h

end Script.Machine

namespace ExecutionWorker

open Script (Program Expr Machine compileSource compileSource_str)

/-- Of what is said to a script only a result that is no error comes from a value. -/
theorem value_of_result {fuel : Nat} {cache : BlockCache Script.Value} {w : ExecutionWorker}
    {source : Json} {statements : Program} {text : Points}
    (hsource : compileSource source = .ok statements)
    (hmessages : (step fuel cache w (.evaluate source)).messages =
      [.text (.str ("Result: " ++ text))])
    (herror : ∀ cause : Points, text ≠ "Error: " ++ cause) :
    ∃ v m shown, w.machine.evalUnit fuel (w.unit ++ statements) = (.ok v, m) ∧
      m.store.literal v = .ok shown ∧ text = .ofString shown := by
  have hrefused : refusal (.evaluate source) ≠ .text (.str ("Result: " ++ text)) := by
    intro h
    injection h with h
    injection h with h
    simpa [Points.ofString] using congrArg List.head? h
  -- A script that is given up, or breaks the worker off, has no result.
  have hsilent (p : Prop) [Decidable p] :
      ([] ++ if p then [refusal (.evaluate source)] else []) ≠
        [.text (.str ("Result: " ++ text))] := by
    split <;> simp [hrefused]
  rw [messages_step] at hmessages
  simp only [handle, evaluate, hsource] at hmessages
  cases heval : w.machine.evalUnit fuel (w.unit ++ statements) with | mk value m =>
  rw [heval] at hmessages
  cases value with
  | ok v =>
      cases hliteral : m.store.literal v with
      | ok shown =>
          simp [hliteral, sayText, Handled.say] at hmessages
          exact ⟨v, m, shown, rfl, hliteral, hmessages.symm⟩
      | error f =>
          simp only [hliteral, sayText, Handled.giveUp] at hmessages
          exact absurd hmessages (hsilent _)
  | error f =>
      cases f with
      | script cause =>
          have hcause : Points.ofString "Result: Error: " ++ cause =
              .ofString "Result: " ++ text := by
            simpa [sayFailure, Handled.say] using hmessages
          have hlead : Points.ofString "Result: Error: " ++ cause =
              .ofString "Result: " ++ (.ofString "Error: " ++ cause) :=
            Points.ofString_append_append (by rfl) cause
          rw [hlead, List.append_cancel_left_eq] at hcause
          exact absurd hcause.symm (herror cause)
      | fault _ | escaped _ | unfinished => exact absurd hmessages (hsilent _)

/-- A result that is no error shows the end of the script behind the unit: the value of the
expression that the script ends with, or None if it ends with another statement. Only a script
without a statement shows the end of the unit in its place. -/
theorem result_shows_end (fuel : Nat) (cache : BlockCache Script.Value) (w : ExecutionWorker)
    (source : Json) (statements : Program) (text : Points)
    (hsource : compileSource source = .ok statements)
    (hmessages : (step fuel cache w (.evaluate source)).messages =
      [.text (.str ("Result: " ++ text))])
    (herror : ∀ cause : Points, text ≠ "Error: " ++ cause) :
    ∃ shown : String, text = shown ∧
    (∀ before e, statements = before ++ [.expr e] →
      w.machine.ShowsValue fuel (w.unit ++ before) e shown) ∧
    (statements ≠ [] → (∀ before e, statements ≠ before ++ [.expr e]) →
      w.machine.ShowsNone fuel (w.unit ++ statements) shown) ∧
    (statements = [] → ∀ before e, w.unit = before ++ [.expr e] →
      w.machine.ShowsValue fuel before e shown) ∧
    (statements = [] → (∀ before e, w.unit ≠ before ++ [.expr e]) →
      w.machine.ShowsNone fuel w.unit shown) := by
  obtain ⟨v, m, shown, heval, hliteral, htext⟩ := value_of_result hsource hmessages herror
  refine ⟨shown, htext, ?_, ?_, ?_, ?_⟩
  · rintro before e rfl
    rw [← List.append_assoc] at heval
    exact Machine.shows_expr heval hliteral
  · intro hne hend
    refine Machine.shows_statement (fun before e hmerged => ?_) heval hliteral
    obtain ⟨own, last, rfl⟩ := (List.eq_nil_or_concat statements).resolve_left hne
    rw [List.concat_eq_append, ← List.append_assoc] at hmerged
    obtain ⟨-, hlast⟩ := List.append_inj' hmerged rfl
    exact hend own e (by rw [List.concat_eq_append, hlast])
  · rintro rfl before e hunit
    rw [List.append_nil, hunit] at heval
    exact Machine.shows_expr heval hliteral
  · rintro rfl hend
    rw [List.append_nil] at heval
    exact Machine.shows_statement hend heval hliteral

/-- A worker that ran a unit of one number. -/
def counted : ExecutionWorker := { machine := Machine.restored {}, unit := [.expr (.int 1)] }

theorem compile_one : compileSource (.str "1") = .ok [.expr (.int 1)] :=
  compileSource_str (Script.compile_of_tokens [.int 1, .newline] (by decide) rfl rfl rfl)

theorem compile_empty : compileSource (.str "") = .ok [] :=
  compileSource_str (Script.compile_of_tokens [] (by decide) rfl rfl rfl)

/-- A script that leaves the number at the end of the unit shows it. -/
theorem evaluate_counted {w : ExecutionWorker} {source : Json} {statements : Program}
    (hmachine : w.machine.restored = Machine.restored {})
    (hsource : compileSource source = .ok statements)
    (hunit : w.unit ++ statements = [.expr (.int 1)]) :
    w.evaluate 1000 source = .say counted "Result: 1" := by
  have heval : w.machine.evalUnit 1000 [.expr (.int 1)] = (.ok (.int 1), Machine.restored {}) := by
    have hrun : w.machine.evalUnit 1000 [.expr (.int 1)] = (.ok (.int 1),
      { w.machine.restored with names := w.machine.restored.namesAtHand }) := rfl
    rw [hrun, hmachine]
    rfl
  simp only [evaluate, hsource, hunit, heval, Script.Store.literal_int,
    Script.integerText_digit (n := 1) (by decide)]
  rfl

/-- A script that is just a number, sent to a fresh worker. -/
theorem result_shows_end_number :
    (compileSource (.str "1") = .ok [.expr (.int 1)] ∧
      (step 1000 (.empty .none) {} (.evaluate (.str "1"))).messages =
        [.text (.str ("Result: " ++ "1"))] ∧
      ∀ cause : Points, .ofString "1" ≠ "Error: " ++ cause) ∧
    Machine.ShowsValue 1000 {} [] (.int 1) "1" := by
  have hmessages : (step 1000 (.empty .none) {} (.evaluate (.str "1"))).messages =
      [.text (.str ("Result: " ++ "1"))] := by
    rw [messages_step, handle, evaluate_counted rfl compile_one rfl]
    rfl
  have herror : ∀ cause : Points, .ofString "1" ≠ "Error: " ++ cause := by
    intro cause h
    simpa [Points.ofString] using congrArg List.head? h
  obtain ⟨shown, hshown, hvalue, -⟩ :=
    result_shows_end 1000 _ {} _ _ "1" compile_one hmessages herror
  obtain rfl : "1" = shown := Points.ofString_injective hshown
  exact ⟨⟨compile_one, hmessages, herror⟩, hvalue [] (.int 1) rfl⟩

/-- A script without a statement shows the value that the script before it ended with. -/
theorem empty_script_shows_last :
    let w := Handled.after (step 1000 (.empty .none)) {} [.evaluate (.str "1")]
    compileSource (.str "") = .ok [] ∧
    (step 1000 (.empty .none) w (.evaluate (.str ""))).messages =
      [.text (.str "Result: 1")] := by
  have hafter : Handled.after (step 1000 (.empty .none)) {} [.evaluate (.str "1")] = counted := by
    simp only [Handled.after, List.foldl_cons, List.foldl_nil, worker_step, handle,
      evaluate_counted (w := {}) rfl compile_one rfl]
    rfl
  refine ⟨compile_empty, ?_⟩
  rw [hafter, messages_step, handle, evaluate_counted rfl compile_empty rfl]
  rfl

end ExecutionWorker

end BlockWorkbench
