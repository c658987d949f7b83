import BlockWorkbench.Proofs.Script.Confined
import BlockWorkbench.Proofs.Script.Sparing

/-!
Scripts without reserved names never come by the dictionary of the predefined names, so they leave it
as it is. The proof follows the evaluator: what an expression gives is sealed, what a function or a
loop is left with is sealed, and the machine behind it is confined if the one before it was.
-/

namespace BlockWorkbench.Script

/-! ### Assignments -/

theorem confines_setItem {v key value : Value} (hv : v.Sealed) (hkey : key.Sealed)
    (hvalue : value.Sealed) : (Run.setItem v key value).Confines fun _ => True :=
  confines_act fun _ hs => (Store.yields_setItem hs hv hkey hvalue).bind fun _ ht =>
    yields_ok ⟨trivial, ht⟩

section Assignments

variable {eval : Expr → Run Value} {place : Place}

mutual

theorem confines_assign (heval : ∀ e : Expr, e.Unreserved → (eval e).Confines Value.Sealed)
    {target : Target} (htarget : target.Unreserved) {v : Value} (hv : v.Sealed) :
    (target.assign eval place v).Confines fun _ => True := by
  cases target with
  | name n =>
      rw [Target.assign]
      exact confines_bindName (ne_of_not_isReserved htarget) place hv
  | index e key =>
      rw [Target.assign]
      exact (heval e htarget.1).bind fun _ hcontainer => (heval key htarget.2).bind fun _ hkey =>
        confines_setItem hcontainer hkey hv
  | member e n =>
      rw [Target.assign]
      exact (heval e htarget.1).bind fun _ hcontainer => confines_setAttribute hcontainer n
  | tuple targets =>
      rw [Target.assign]
      exact (confines_ask fun s hs => Store.yields_unpack hs _ hv).bind fun _ hvalues =>
        confines_assignEach heval htarget hvalues

theorem confines_assignEach (heval : ∀ e : Expr, e.Unreserved → (eval e).Confines Value.Sealed)
    {targets : List Target} (htargets : TargetsUnreserved targets) {values : List Value}
    (hvalues : AreSealed values) :
    (assignEach eval place targets values).Confines fun _ => True := by
  cases targets with
  | nil =>
      simp only [assignEach]
      exact confines_value trivial
  | cons target targets =>
      cases values with
      | nil =>
          simp only [assignEach]
          exact confines_value trivial
      | cons v values =>
          obtain ⟨hv, hvalues⟩ := List.forall_mem_cons.mp hvalues
          simp only [assignEach]
          exact (confines_assign heval htargets.1 hv).bind fun _ _ =>
            confines_assignEach heval htargets.2 hvalues

end

variable (heval : ∀ e : Expr, e.Unreserved → (eval e).Confines Value.Sealed)

include heval

theorem confines_augment {target : Target} (htarget : target.Unreserved) (op : BinaryOp)
    {operand : Expr} (hoperand : operand.Unreserved) :
    (target.augment eval place op operand).Confines fun _ => True := by
  have hoperate {old v : Value} (hold : old.Sealed) (hv : v.Sealed) :
      (Run.act (·.operateInPlace op old v)).Confines Value.Sealed :=
    confines_act fun s hs => Store.yields_operateInPlace hs op hold hv
  cases target with
  | name n =>
      have hn := ne_of_not_isReserved htarget
      exact (confines_nameValue hn place).bind fun _ hold => (heval operand hoperand).bind
        fun _ hv => (hoperate hold hv).bind fun _ hresult => confines_bindName hn place hresult
  | index e key =>
      refine (heval e htarget.1).bind fun container hcontainer =>
        (heval key htarget.2).bind fun key hkey => ?_
      refine (confines_ask fun s hs => Store.yields_item hs (.inr hcontainer) key).bind
        fun _ hold => (heval operand hoperand).bind fun _ hv => ?_
      exact (hoperate hold hv).bind fun _ hresult => confines_setItem hcontainer hkey hresult
  | member e n =>
      exact (heval e htarget.1).bind fun _ hv => (confines_attribute hv n).bind fun _ _ =>
        confines_value trivial
  | tuple _ => exact confines_value trivial

theorem confines_compareInRow {a : Value} (ha : a.Sealed) {rest : List (CompareOp × Expr)}
    (hrest : OperandsUnreserved rest) : (compareInRow eval a rest).Confines Value.Sealed := by
  induction rest generalizing a with
  | nil => exact confines_value ha
  | cons next rest ih =>
      obtain ⟨op, e⟩ := next
      simp only [compareInRow]
      refine (heval e hrest.1).bind fun b hb => (confines_asked _).bind fun holds _ => ?_
      cases rest with
      | nil => exact confines_value trivial
      | cons =>
          cases holds with
          | false => exact confines_value trivial
          | true => exact ih hb hrest.2

end Assignments

/-! ### Evaluation -/

/-- Whatever is evaluated with this fuel is confined, if it has no reserved names. -/
structure Confining (fuel : Nat) : Prop where
  eval : ∀ (place : Place) (e : Expr), e.Unreserved → (eval fuel place e).Confines Value.Sealed
  call : ∀ (f : Value) (args : List Value), f.Sealed → AreSealed args →
    (call fuel f args).Confines Value.Sealed
  exec : ∀ (place : Place) (stmt : Stmt), stmt.Unreserved →
    (exec fuel place stmt).Confines Flow.Sealed

section Evaluation

variable {fuel : Nat} (ih : Confining fuel) (place : Place)

include ih

theorem confines_evalStep {e : Expr} (he : e.Unreserved) :
    (eval (fuel + 1) place e).Confines Value.Sealed := by
  have heval := ih.eval place
  have heach {items : List Expr} (hitems : AllUnreserved items) :
      (Run.each (eval fuel place) items).Confines AreSealed :=
    confines_each fun e hmem => heval e (allUnreserved_iff.mp hitems e hmem)
  cases e with
  | none | bool _ | int _ | float _ | str _ => exact confines_value trivial
  | name name => exact confines_nameValue (ne_of_not_isReserved he) place
  | list items =>
      exact (heach he).bind fun values hvalues => confines_make fun s hs =>
        ⟨trivial, hs.addList (by simpa [AreSealed] using hvalues)⟩
  | tuple items => exact (heach he).bind fun _ hvalues => confines_value (sealed_tuple.mpr hvalues)
  | dict entries =>
      have hpair : ∀ entry ∈ entries,
          (do return (← eval fuel place entry.1, ← eval fuel place entry.2) : Run _).Confines
            fun pair : Value × Value => pair.1.Sealed ∧ pair.2.Sealed := by
        intro entry hentry
        obtain ⟨hkey, hvalue⟩ := entriesUnreserved_iff.mp he entry hentry
        exact (heval _ hkey).bind fun _ hk => (heval _ hvalue).bind fun _ hv =>
          confines_value ⟨hk, hv⟩
      exact (confines_each hpair).bind fun pairs hpairs => confines_act fun s hs =>
        (yields_dictOf (List.forall_mem_nil _) hpairs).bind fun entries hentries =>
          yields_ok (hs.addDict hentries)
  | unary op e => exact (heval e he).bind fun v _ => confines_ask fun s _ => s.yields_unary op v
  | binary op a b =>
      exact (heval a he.1).bind fun _ hv => (heval b he.2).bind fun _ hw =>
        confines_act fun s hs => Store.yields_operate hs false op hv hw
  | compare first rest =>
      exact (heval first he.1).bind fun _ hv => confines_compareInRow heval hv he.2
  | both a b =>
      refine (heval a he.1).bind fun v hv => (confines_looked _).bind fun holds _ => ?_
      cases holds with
      | false => exact confines_value hv
      | true => exact heval b he.2
  | either a b =>
      refine (heval a he.1).bind fun v hv => (confines_looked _).bind fun holds _ => ?_
      cases holds with
      | false => exact heval b he.2
      | true => exact confines_value hv
  | not e =>
      exact (heval e he).bind fun _ _ => (confines_looked _).bind fun _ _ => confines_value trivial
  | conditional test whenTrue whenFalse =>
      refine (heval test he.1).bind fun _ _ => (confines_looked _).bind fun holds _ => ?_
      cases holds with
      | false => exact heval whenFalse he.2.2
      | true => exact heval whenTrue he.2.1
  | index e key =>
      exact (heval e he.1).bind fun _ hv => (heval key he.2).bind fun key _ =>
        confines_ask fun s hs => Store.yields_item hs (.inr hv) key
  | member e name => exact (heval e he.1).bind fun _ hv => confines_attribute hv name
  | call f args =>
      exact (heval f he.1).bind fun f hf => (heach he.2).bind fun args hargs =>
        ih.call f args hf hargs

theorem confines_callStep {f : Value} {args : List Value} (hf : f.Sealed) (hargs : AreSealed args) :
    (call (fuel + 1) f args).Confines Value.Sealed := by
  cases f with
  | function a =>
      refine (confines_look fun s hs => hs.functions a).bind fun f hf => ?_
      refine (confines_ask fun _ _ => yields_bindArguments hf hargs).bind fun bindings hbound => ?_
      refine confines_nested (Run.Confines.bind (P := fun _ => True)
        (confines_make fun s hs => ⟨trivial, hs.addFrame ⟨hbound, hf.names⟩⟩) fun frame _ => ?_)
      refine (confines_sequence fun stmt hmem =>
        ih.exec (some frame) stmt (hf.body stmt hmem)).bind fun flow hflow => ?_
      cases flow with
      | back v => exact confines_value hflow
      | next | leave | again => exact confines_value trivial
  | builtin b => exact confines_builtin hargs b
  | errorClass kind =>
      simp only [call]
      exact confines_make fun s hs => ⟨trivial, hs.addError _⟩
  | method m receiver => exact confines_method hargs m hf
  | none | bool _ | int _ | float _ | str _ | tuple _ | range _ _ _ | list _ | dict _ | error _ =>
      simp only [call]
      exact confines_ask fun _ _ => yields_error _

theorem confines_execStep {stmt : Stmt} (hstmt : stmt.Unreserved) :
    (exec (fuel + 1) place stmt).Confines Flow.Sealed := by
  have heval := ih.eval place
  have hblock {program : List Stmt} (h : StatementsUnreserved program) :
      (Flow.sequence (exec fuel place) program).Confines Flow.Sealed :=
    confines_sequence fun stmt hmem => ih.exec place stmt (statementsUnreserved_iff.mp h stmt hmem)
  cases stmt with
  | expr e => exact (heval e hstmt).bind fun _ _ => confines_value trivial
  | assign targets e =>
      refine (heval e hstmt.2).bind fun v hv => ?_
      refine (confines_eachDo fun t ht => ?_).bind fun _ _ => confines_value trivial
      exact confines_assign heval (targetsUnreserved_iff.mp hstmt.1 t ht) hv
  | augment target op e =>
      exact (confines_augment heval hstmt.1 op hstmt.2).bind fun _ _ => confines_value trivial
  | pass | «break» | «continue» => exact confines_value trivial
  | define name params body =>
      obtain ⟨hname, hparams, hbody⟩ := hstmt
      refine (confines_each (Q := Value.Sealed) fun e he => ?_).bind fun defaults hdefaults => ?_
      · obtain ⟨p, hp, hdefault⟩ := List.mem_filterMap.mp he
        exact heval e ((hparams p hp).2 e hdefault)
      · refine (confines_makeFunction place name params (statementsUnreserved_iff.mp hbody)
          hdefaults).bind fun f hf => ?_
        exact (confines_bindName (ne_of_not_isReserved hname) place hf).bind fun _ _ =>
          confines_value trivial
  | branch test body orelse =>
      refine (heval test hstmt.1).bind fun _ _ => (confines_looked _).bind fun taken _ => hblock ?_
      cases taken with
      | false => exact hstmt.2.2
      | true => exact hstmt.2.1
  | forEach target items body orelse =>
      obtain ⟨htarget, hitems, hbody, horelse⟩ := hstmt
      refine (heval items hitems).bind fun _ hv => ?_
      refine (confines_ask fun s hs => Cursor.yields_start hs hv).bind fun cursor hcursor => ?_
      refine (confines_repeatOver (fun v hv => ?_) hcursor).bind fun flow hflow => ?_
      · exact (confines_assign heval htarget hv).bind fun _ _ => hblock hbody
      · cases flow with
        | none => exact hblock horelse
        | some flow => exact confines_value (hflow flow rfl)
  | loop test body orelse =>
      obtain ⟨htest, hbody, horelse⟩ := hstmt
      refine (confines_repeatWhile ?_ (hblock hbody)).bind fun flow hflow => ?_
      · exact (heval test htest).bind fun _ _ => confines_looked _
      · cases flow with
        | none => exact hblock horelse
        | some flow => exact confines_value (hflow flow rfl)
  | «return» value =>
      cases value with
      | none => exact confines_value trivial
      | some e => exact (heval e (hstmt e rfl)).bind fun _ hv => confines_value hv
  | raise value =>
      cases value with
      | none => exact confines_fault _
      | some e => exact (heval e (hstmt e rfl)).bind fun v _ => confines_raiseValue v

end Evaluation

theorem confining (fuel : Nat) : Confining fuel := by
  induction fuel with
  | zero =>
      exact ⟨fun _ _ _ => confines_exhausted, fun _ _ _ _ => confines_exhausted,
        fun _ _ _ => confines_exhausted⟩
  | succ fuel ih =>
      exact ⟨fun place _ => confines_evalStep ih place, fun _ _ => confines_callStep ih,
        fun place _ => confines_execStep ih place⟩

/-! ### Programs -/

section Programs

variable (fuel : Nat) {program : Program} (h : ∀ stmt ∈ program, stmt.Unreserved)

theorem confines_restoreNames : Run.restoreNames.Confines fun _ => True := by
  intro m hm
  rw [Machine.restoreNames_apply]
  refine ⟨trivial, hm.store, .inl rfl, ?_, fun name v hname hv => ?_⟩
  · rw [Machine.namesAtHand_restored]
    exact .inl rfl
  · rw [Machine.bound?_restored m hname] at hv
    exact hm.scope name v hname hv

theorem confines_adoptNames : Run.adoptNames.Confines fun _ => True :=
  fun _ hm => ⟨trivial, hm.store, hm.atHand, hm.atHand, hm.scope⟩

include h

theorem confines_runAll : (runAll fuel program).Confines fun _ => True :=
  (confines_sequence fun stmt hmem => (confining fuel).exec none stmt (h stmt hmem)).bind
    fun _ _ => confines_value trivial

/-- A program without reserved names leaves a confined machine, however it ends. -/
theorem confines_evalProgram : (evalProgram fuel program).Confines Value.Sealed := by
  obtain hsplit | ⟨body, e, rfl, hsplit⟩ := splitResult_cases program
  · simp only [evalProgram, hsplit]
    exact confines_restoreNames.bind fun _ _ => (confines_runAll fuel h).bind fun _ _ =>
      confines_value trivial
  · obtain ⟨hbody, he⟩ := List.forall_mem_append.mp h
    simp only [evalProgram, hsplit]
    refine confines_restoreNames.bind fun _ _ => (confines_runAll fuel hbody).bind fun _ _ => ?_
    have he : e.Unreserved := he _ (List.mem_singleton_self _)
    exact confines_adoptNames.bind fun _ _ => (confining fuel).eval none e he

end Programs

end BlockWorkbench.Script
