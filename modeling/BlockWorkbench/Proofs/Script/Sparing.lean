import BlockWorkbench.Proofs.Script.Fuel
import BlockWorkbench.Proofs.Script.Names

/-!
Names that a script leaves alone. A name at top level that is not bound, and that no statement of a
program binds where it stands, is not bound behind the program, however it ends; what the functions
bind that it calls are names of their own.
-/

namespace BlockWorkbench.Script

variable {α β : Type}

/-- A name that is not bound at top level is not bound behind `x`. -/
def Run.Spares (name : String) (x : Run α) : Prop :=
  ∀ m, bound? m.scope name = none → bound? (x m).2.scope name = none

variable {name : String}

theorem Run.Spares.bind {x : Run α} {f : α → Run β} (hx : x.Spares name)
    (hf : ∀ a, (f a).Spares name) : (x >>= f).Spares name := by
  intro m h
  have hfirst := hx m h
  rw [bind_apply]
  cases hxm : x m with | mk out m' =>
  rw [hxm] at hfirst
  cases out with
  | value a => exact hf a m' hfirst
  | raised r => exact hfirst
  | exhausted => exact hfirst

theorem respected_spares (name : String) : Respected (fun _ => True) (·.isSome)
    fun x _ => x.Spares name where
  ofBinds _ := trivial
  inCall _ := rfl
  value _ := fun _ h => h
  raised _ := fun _ h => h
  exhausted _ := fun _ h => h
  bind := Run.Spares.bind
  nested := by
    intro α x _ hx m h
    unfold Run.nested
    split
    · exact h
    · exact hx { m with depth := m.depth + 1 } h
  ask question := by
    intro m h
    unfold Run.ask
    split <;> exact h
  act step := by
    intro m h
    unfold Run.act
    split <;> exact h
  nameValue _ other := by
    intro m h
    unfold Run.nameValue
    split <;> exact h
  bindName {place} hplace other v := by
    intro m h
    obtain ⟨a, rfl⟩ := Option.isSome_iff_exists.mp hplace
    exact h
  makeFunction _ _ _ _ _ := fun _ h => h
  register kind spec := by
    intro m h
    unfold registerModule
    split <;> exact h
  manifest callee := by
    intro m h
    rw [callManifest_nil]
    cases m.registry.manifestText m.store <;> exact h

theorem spares_bindName {other : String} (h : name ≠ other) (v : Value) :
    (Run.bindName none other v).Spares name := by
  intro m hm
  simpa [Run.bindName, bound?_bind, h] using hm

section Statements

variable (fuel : Nat)

theorem spares_eval (e : Expr) : (eval fuel none e).Spares name :=
  ((respected_spares name).related le_rfl).eval trivial e

mutual

theorem spares_assign {target : Target} (h : name ∉ target.names) (v : Value) :
    (target.assign (eval fuel none) none v).Spares name := by
  have hr := respected_spares name
  cases target with
  | name other =>
      rw [Target.assign]
      exact spares_bindName (by simpa [Target.names] using h) v
  | index e key =>
      rw [Target.assign]
      exact (spares_eval fuel e).bind fun _ => (spares_eval fuel key).bind fun _ => hr.act _
  | member e n =>
      rw [Target.assign]
      exact (spares_eval fuel e).bind fun c => hr.setAttribute c n
  | tuple targets =>
      rw [Target.assign]
      exact (hr.ask _).bind fun values => spares_assignEach (by simpa [Target.names] using h) values

theorem spares_assignEach {targets : List Target} (h : name ∉ targetNames targets)
    (values : List Value) : (assignEach (eval fuel none) none targets values).Spares name := by
  cases targets with
  | nil =>
      simp only [assignEach]
      exact fun _ h => h
  | cons target targets =>
      simp only [targetNames, List.mem_append, not_or] at h
      cases values with
      | nil =>
          simp only [assignEach]
          exact fun _ h => h
      | cons v values =>
          simp only [assignEach]
          exact (spares_assign h.1 v).bind fun _ => spares_assignEach h.2 values

end

theorem spares_eachDo_assign {targets : List Target} (h : name ∉ targetNames targets) (v : Value) :
    (Run.eachDo (fun t => t.assign (eval fuel none) none v) targets).Spares name := by
  induction targets with
  | nil => exact fun _ h => h
  | cons target targets ih =>
      simp only [targetNames, List.mem_append, not_or] at h
      exact (spares_assign fuel h.1 v).bind fun _ => ih h.2

theorem spares_augment {target : Target} (h : name ∉ target.names) (op : BinaryOp)
    (operand : Expr) : (target.augment (eval fuel none) none op operand).Spares name := by
  have hr := respected_spares name
  have heval : ∀ e, (eval fuel none e).Spares name := spares_eval fuel
  cases target with
  | name other =>
      exact (hr.nameValue trivial other).bind fun _ => (heval operand).bind fun _ =>
        (hr.act _).bind fun v => spares_bindName (by simpa [Target.names] using h) v
  | index e key =>
      exact (heval e).bind fun _ => (heval key).bind fun _ => (hr.ask _).bind fun _ =>
        (heval operand).bind fun _ => (hr.act _).bind fun _ => hr.act _
  | member e n => exact (heval e).bind fun c => (hr.attributeOf c n).bind fun _ => hr.value ()
  | tuple _ => exact fun _ h => h

theorem spares_repeatWhile {test : Run Bool} {body : Run Flow} (htest : test.Spares name)
    (hbody : body.Spares name) : (Flow.repeatWhile test body fuel).Spares name :=
  @Respected.repeatWhile _ _ _ (respected_spares name) test test body body htest hbody _ _ le_rfl

theorem spares_repeatOver {body : Value → Run Flow} (hbody : ∀ v, (body v).Spares name)
    (cursor : Cursor) : (Flow.repeatOver body fuel cursor).Spares name :=
  @Respected.repeatOver _ _ _ (respected_spares name) body body hbody _ _ le_rfl cursor

/-- Statements in a row, each of which spares the name unless it binds it. -/
theorem spares_sequence {run : Stmt → Run Flow}
    (hrun : ∀ stmt, name ∉ stmt.bound → (run stmt).Spares name) {program : List Stmt}
    (h : name ∉ boundNames program) : (Flow.sequence run program).Spares name := by
  induction program with
  | nil => exact fun _ h => h
  | cons stmt rest ih =>
      simp only [boundNames, List.mem_append, not_or] at h
      refine (hrun stmt h.1).bind fun flow => ?_
      cases flow with
      | next => exact ih h.2
      | leave | again | back _ => exact fun _ h => h

/-- A statement at top level spares the names that it does not bind. -/
theorem spares_exec {stmt : Stmt} (h : name ∉ stmt.bound) :
    (exec fuel none stmt).Spares name := by
  have hr := respected_spares name
  induction fuel generalizing stmt with
  | zero => exact fun _ h => h
  | succ fuel ih =>
      have heval : ∀ e, (eval fuel none e).Spares name := spares_eval fuel
      have hblock {program : List Stmt} (h : name ∉ boundNames program) :
          (Flow.sequence (exec fuel none) program).Spares name := spares_sequence (fun _ => ih) h
      cases stmt with
      | expr e => exact (heval e).bind fun _ => hr.value _
      | assign targets e =>
          exact (heval e).bind fun v => (spares_eachDo_assign fuel h v).bind fun _ => hr.value _
      | augment target op e => exact (spares_augment fuel h op e).bind fun _ => hr.value _
      | pass | «break» | «continue» => exact hr.value _
      | define other params body =>
          refine (hr.each (g := eval fuel none) heval _).bind fun defaults => ?_
          refine Run.Spares.bind (fun _ h => h) fun f => ?_
          exact (spares_bindName (by simpa [Stmt.bound] using h) f).bind fun _ => hr.value _
      | branch test body orelse =>
          simp only [Stmt.bound, List.mem_append, not_or] at h
          refine (heval test).bind fun _ => (hr.look _).bind fun taken => hblock ?_
          cases taken with
          | false => exact h.2
          | true => exact h.1
      | forEach target items body orelse =>
          simp only [Stmt.bound, List.mem_append, not_or] at h
          refine (heval items).bind fun _ => (hr.ask _).bind fun cursor => ?_
          refine (spares_repeatOver fuel (fun v => ?_) cursor).bind fun flow => ?_
          · exact (spares_assign fuel h.1.1 v).bind fun _ => hblock h.1.2
          · cases flow with
            | none => exact hblock h.2
            | some => exact hr.value _
      | loop test body orelse =>
          simp only [Stmt.bound, List.mem_append, not_or] at h
          refine (spares_repeatWhile fuel ?_ (hblock h.1)).bind fun flow => ?_
          · exact (heval test).bind fun _ => hr.look _
          · cases flow with
            | none => exact hblock h.2
            | some => exact hr.value _
      | «return» value =>
          cases value with
          | none => exact hr.value _
          | some e => exact (heval e).bind fun _ => hr.value _
      | raise value =>
          cases value with
          | none => exact hr.fault _
          | some e => exact (heval e).bind fun v => hr.raiseValue v

theorem spares_runAll {program : Program} (h : name ∉ boundNames program) :
    (runAll fuel program).Spares name :=
  (spares_sequence (fun _ => spares_exec fuel) h).bind fun _ _ h => h

theorem boundNames_append (program more : List Stmt) :
    boundNames (program ++ more) = boundNames program ++ boundNames more := by
  induction program with
  | nil => rfl
  | cons stmt rest ih => simp [boundNames, ih]

/-- A program gives no value, or that of the expression that it ends with. -/
theorem splitResult_cases (program : Program) : splitResult program = (program, none) ∨
    ∃ body e, program = body ++ [.expr e] ∧ splitResult program = (body, some e) := by
  obtain rfl | ⟨body, stmt, rfl⟩ := program.eq_nil_or_concat
  · exact .inl rfl
  · rw [splitResult, List.concat_eq_append, List.getLast?_concat, List.dropLast_concat]
    cases stmt with
    | expr e => exact .inr ⟨body, e, rfl, rfl⟩
    | _ => exact .inl rfl

theorem spares_restoreNames (hname : name ≠ predefinedNames) :
    Run.restoreNames.Spares name := fun m h => by
  rw [Machine.restoreNames_apply, Machine.bound?_restored m hname, h]

/-- A program does not bind a name that none of its statements binds where it stands. -/
theorem spares_evalProgram (hname : name ≠ predefinedNames) {program : Program}
    (h : name ∉ boundNames program) : (evalProgram fuel program).Spares name := by
  obtain hsplit | ⟨body, e, rfl, hsplit⟩ := splitResult_cases program
  · simp only [evalProgram, hsplit]
    exact (spares_restoreNames hname).bind fun _ => (spares_runAll fuel h).bind fun _ _ h => h
  · simp only [boundNames_append, List.mem_append, not_or] at h
    simp only [evalProgram, hsplit]
    refine (spares_restoreNames hname).bind fun _ => (spares_runAll fuel h.1).bind fun _ => ?_
    exact Run.Spares.bind (fun _ h => h) fun _ => spares_eval fuel e

end Statements

end BlockWorkbench.Script
