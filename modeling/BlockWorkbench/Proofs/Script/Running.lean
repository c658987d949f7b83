import BlockWorkbench.Script.Evaluation

/-!
Relations between computations that the steps of a machine and their sequences respect. Such a
relation holds between the evaluations of an expression, a call or a statement with some fuel and
with more: one induction over the evaluator serves every property that is put in this form.
-/

namespace BlockWorkbench.Script

/-- A relation between computations that every step respects. Names are read and bound only at
the places that `reads` and `binds` allow; the frames of calls are among them. -/
structure Respected (reads binds : Place → Prop) (R : ∀ {α : Type}, Run α → Run α → Prop) :
    Prop where
  ofBinds : ∀ {place : Place}, binds place → reads place
  inCall : ∀ a : Address, binds (some a)
  value : ∀ {α : Type} (a : α), R (pure a : Run α) (pure a)
  raised : ∀ {α : Type} (r : Raised), R (Run.raised r : Run α) (Run.raised r)
  /-- With more fuel anything may come of a computation for which it did not last. -/
  exhausted : ∀ {α : Type} (y : Run α), R Run.exhausted y
  bind : ∀ {α β : Type} {x y : Run α} {f g : α → Run β}, R x y → (∀ a, R (f a) (g a)) →
    R (x >>= f) (y >>= g)
  nested : ∀ {α : Type} {x y : Run α}, R x y → R x.nested y.nested
  ask : ∀ {α : Type} (question : Store → Except RuntimeFault α),
    R (Run.ask question) (Run.ask question)
  act : ∀ {α : Type} (step : Store → Except RuntimeFault (α × Store)),
    R (Run.act step) (Run.act step)
  nameValue : ∀ {place : Place}, reads place → ∀ name,
    R (Run.nameValue place name) (Run.nameValue place name)
  bindName : ∀ {place : Place}, binds place → ∀ name v,
    R (Run.bindName place name v) (Run.bindName place name v)
  makeFunction : ∀ {place : Place}, binds place → ∀ name params body defaults,
    R (makeFunction place name params body defaults) (makeFunction place name params body defaults)
  register : ∀ kind spec, R (registerModule kind spec) (registerModule kind spec)
  manifest : ∀ callee, R (callManifest callee []) (callManifest callee [])

namespace Respected

variable {reads binds : Place → Prop} {R : ∀ {α : Type}, Run α → Run α → Prop}

section Steps

variable (h : Respected reads binds R) {α β : Type}

include h

theorem fault (f : RuntimeFault) : R (Run.fault f : Run α) (Run.fault f) := h.raised (.fault f)

theorem look (view : Store → α) : R (Run.look view) (Run.look view) := h.ask fun s => .ok (view s)

theorem make (step : Store → α × Store) : R (Run.make step) (Run.make step) :=
  h.act fun s => .ok (step s)

theorem change (step : Store → Store) : R (Run.change step) (Run.change step) :=
  h.act fun s => .ok ((), step s)

theorem each {f g : α → Run β} (hf : ∀ a, R (f a) (g a)) (as : List α) :
    R (Run.each f as) (Run.each g as) := by
  induction as with
  | nil => exact h.value []
  | cons a rest ih => exact h.bind (hf a) fun b => h.bind ih fun bs => h.value (b :: bs)

theorem eachDo {f g : α → Run Unit} (hf : ∀ a, R (f a) (g a)) (as : List α) :
    R (Run.eachDo f as) (Run.eachDo g as) := by
  induction as with
  | nil => exact h.value ()
  | cons a rest ih => exact h.bind (hf a) fun _ => ih

theorem sequence {f g : α → Run Flow} (hf : ∀ a, R (f a) (g a)) (as : List α) :
    R (Flow.sequence f as) (Flow.sequence g as) := by
  induction as with
  | nil => exact h.value Flow.next
  | cons a rest ih =>
      refine h.bind (hf a) fun flow => ?_
      cases flow with
      | next => exact ih
      | leave | again | back _ => exact h.value _

theorem repeatWhile {test test' : Run Bool} {body body' : Run Flow} (htest : R test test')
    (hbody : R body body') {fuel fuel' : Nat} (hfuel : fuel ≤ fuel') :
    R (Flow.repeatWhile test body fuel) (Flow.repeatWhile test' body' fuel') := by
  induction fuel generalizing fuel' with
  | zero => exact h.exhausted _
  | succ fuel ih =>
      obtain ⟨fuel', rfl⟩ : ∃ n, fuel' = n + 1 := ⟨fuel' - 1, by omega⟩
      refine h.bind htest fun holds => ?_
      cases holds with
      | false => exact h.value none
      | true =>
          refine h.bind hbody fun flow => ?_
          cases flow with
          | next | again => exact ih (Nat.le_of_succ_le_succ hfuel)
          | leave | back _ => exact h.value _

theorem repeatOver {body body' : Value → Run Flow} (hbody : ∀ v, R (body v) (body' v))
    {fuel fuel' : Nat} (hfuel : fuel ≤ fuel') (cursor : Cursor) :
    R (Flow.repeatOver body fuel cursor) (Flow.repeatOver body' fuel' cursor) := by
  induction fuel generalizing fuel' cursor with
  | zero => exact h.exhausted _
  | succ fuel ih =>
      obtain ⟨fuel', rfl⟩ : ∃ n, fuel' = n + 1 := ⟨fuel' - 1, by omega⟩
      refine h.bind (h.ask _) fun next => ?_
      cases next with
      | none => exact h.value none
      | some item =>
          refine h.bind (hbody item.1) fun flow => ?_
          cases flow with
          | next | again => exact ih (Nat.le_of_succ_le_succ hfuel) item.2
          | leave | back _ => exact h.value _

end Steps

section Builtins

variable (h : Respected reads binds R)

include h

theorem single (name : String) (args : List Value) {f : Value → Run Value}
    (hf : ∀ v, R (f v) (f v)) : R (single name args f) (single name args f) := by
  unfold Script.single
  split
  · exact hf _
  · exact h.fault _

theorem optionalSingle (name : String) {nothing : Run Value} (hnothing : R nothing nothing)
    (args : List Value) {f : Value → Run Value} (hf : ∀ v, R (f v) (f v)) :
    R (optionalSingle name nothing args f) (optionalSingle name nothing args f) := by
  unfold Script.optionalSingle
  split
  · exact hnothing
  · exact hf _
  · exact h.fault _

theorem callRegister (callee : String) (kind : RegisteredKind) (args : List Value) :
    R (callRegister callee kind args) (callRegister callee kind args) := by
  unfold Script.callRegister
  split
  · exact h.register kind _
  · exact h.fault _
  · exact h.fault _

theorem callManifest (callee : String) (args : List Value) :
    R (callManifest callee args) (callManifest callee args) := by
  cases args with
  | nil => exact h.manifest callee
  | cons => exact h.fault _

theorem builtin (b : Builtin) (args : List Value) : R (b.call args) (b.call args) := by
  cases b with
  | len | repr => exact h.single _ args fun v => h.bind (h.ask _) fun _ => h.value _
  | abs =>
      refine h.single _ args fun v => ?_
      split
      · exact h.value _
      · exact h.ask _
  | str | int =>
      simp only [Builtin.call]
      split
      · exact h.value _
      · exact h.bind (h.ask _) fun _ => h.value _
      · exact h.fault _
  | float => exact h.optionalSingle _ (h.value _) args fun v => h.bind (h.ask _) fun _ => h.value _
  | bool => exact h.optionalSingle _ (h.value _) args fun v => h.bind (h.look _) fun _ => h.value _
  | list => exact h.optionalSingle _ (h.make _) args fun v => h.bind (h.ask _) fun _ => h.make _
  | range | min | max =>
      simp only [Builtin.call]
      exact h.ask _
  | sum =>
      simp only [Builtin.call]
      split
      · exact h.act _
      · exact h.ask _
      · exact h.act _
      · exact h.fault _
      · exact h.fault _
  | sorted =>
      simp only [Builtin.call]
      split
      · exact h.bind (h.ask _) fun _ => h.make _
      · exact h.fault _
  | addMap | addStore => exact h.callRegister _ _ args
  | manifest => exact h.callManifest _ args

theorem attributeOf (v : Value) (name : String) : R (v.attribute name) (v.attribute name) := by
  unfold Value.attribute
  split
  · exact h.value _
  · split
    · exact h.fault _
    · split
      · exact h.fault _
      · exact h.ask _
    · exact h.ask _

theorem setAttribute (v : Value) (name : String) :
    R (v.setAttribute name) (v.setAttribute name) := by
  unfold Value.setAttribute
  split
  · exact h.ask _
  · exact h.bind (h.attributeOf v name) fun _ => h.value ()

theorem method (m : Method) (receiver : Value) (args : List Value) :
    R (m.call receiver args) (m.call receiver args) := by
  unfold Method.call
  split
  · split
    · exact h.bind (h.change _) fun _ => h.value _
    · exact h.fault _
  · split
    · exact h.value _
    · exact h.fault _
  · split
    · exact h.ask _
    · exact h.fault _
  · split
    · exact h.fault _
    · exact h.ask _
    · exact h.ask _
    · exact h.fault _
  · exact h.ask _

theorem raiseValue (v : Value) : R (raiseValue v) (raiseValue v) := by
  unfold Script.raiseValue
  split
  · exact h.raised _
  · refine h.bind (h.make _) fun e => ?_
    split
    · exact h.raised _
    · exact h.fault _
  · exact h.fault _

end Builtins

section Statements

variable (h : Respected reads binds R) {eval eval' : Expr → Run Value} {place : Place}

include h

mutual

theorem assign (heval : ∀ e, R (eval e) (eval' e)) (hplace : binds place) (target : Target)
    (v : Value) :
    R (target.assign eval place v) (target.assign eval' place v) := by
  cases target with
  | name n =>
      rw [Target.assign, Target.assign]
      exact h.bindName hplace n v
  | index e key =>
      rw [Target.assign, Target.assign]
      exact h.bind (heval e) fun _ => h.bind (heval key) fun _ => h.act _
  | member e n =>
      rw [Target.assign, Target.assign]
      exact h.bind (heval e) fun c => h.setAttribute c n
  | tuple targets =>
      rw [Target.assign, Target.assign]
      exact h.bind (h.ask _) fun values => assignEach heval hplace targets values

theorem assignEach (heval : ∀ e, R (eval e) (eval' e)) (hplace : binds place)
    (targets : List Target) (values : List Value) :
    R (assignEach eval place targets values) (assignEach eval' place targets values) := by
  cases targets with
  | nil =>
      simp only [Script.assignEach]
      exact h.value ()
  | cons target targets =>
      cases values with
      | nil =>
          simp only [Script.assignEach]
          exact h.value ()
      | cons v values =>
          simp only [Script.assignEach]
          exact h.bind (assign heval hplace target v) fun _ => assignEach heval hplace targets values

end

theorem augment (heval : ∀ e, R (eval e) (eval' e)) (hplace : binds place) (op : BinaryOp)
    (operand : Expr) (target : Target) :
    R (target.augment eval place op operand) (target.augment eval' place op operand) := by
  cases target with
  | name n =>
      exact h.bind (h.nameValue (h.ofBinds hplace) n) fun _ => h.bind (heval operand) fun _ =>
        h.bind (h.act _) fun _ => h.bindName hplace n _
  | index e key =>
      exact h.bind (heval e) fun _ => h.bind (heval key) fun _ => h.bind (h.ask _) fun _ =>
        h.bind (heval operand) fun _ => h.bind (h.act _) fun _ => h.act _
  | member e n => exact h.bind (heval e) fun c => h.bind (h.attributeOf c n) fun _ => h.value ()
  | tuple _ => exact h.value ()

theorem compareInRow (heval : ∀ e, R (eval e) (eval' e)) (a : Value)
    (rest : List (CompareOp × Expr)) :
    R (compareInRow eval a rest) (compareInRow eval' a rest) := by
  induction rest generalizing a with
  | nil => exact h.value a
  | cons next rest ih =>
      obtain ⟨op, e⟩ := next
      simp only [Script.compareInRow]
      refine h.bind (heval e) fun b => h.bind (h.ask _) fun holds => ?_
      cases rest with
      | nil => exact h.value _
      | cons =>
          cases holds with
          | false => exact h.value _
          | true => exact ih b

end Statements

/-- What is related step by step is related as a whole, also when one side has more fuel. -/
structure Related (reads binds : Place → Prop) (R : ∀ {α : Type}, Run α → Run α → Prop)
    (fuel fuel' : Nat) : Prop where
  eval : ∀ {place : Place}, reads place → ∀ e, R (eval fuel place e) (eval fuel' place e)
  call : ∀ f args, R (call fuel f args) (call fuel' f args)
  exec : ∀ {place : Place}, binds place → ∀ stmt, R (exec fuel place stmt) (exec fuel' place stmt)

section Evaluation

variable (h : Respected reads binds R) {fuel fuel' : Nat}

include h

theorem evalStep (ih : Related reads binds R fuel fuel') {place : Place} (hplace : reads place)
    (e : Expr) : R (eval (fuel + 1) place e) (eval (fuel' + 1) place e) := by
  have heval := ih.eval hplace
  cases e with
  | none | bool _ | int _ | float _ | str _ => exact h.value _
  | name name => exact h.nameValue hplace name
  | list items => exact h.bind (h.each heval items) fun _ => h.make _
  | tuple items => exact h.bind (h.each heval items) fun _ => h.value _
  | dict entries =>
      refine h.bind (h.each (fun entry => ?_) entries) fun _ => h.act _
      exact h.bind (heval entry.1) fun _ => h.bind (heval entry.2) fun _ => h.value _
  | unary op e => exact h.bind (heval e) fun _ => h.ask _
  | binary op a b => exact h.bind (heval a) fun _ => h.bind (heval b) fun _ => h.act _
  | compare first rest => exact h.bind (heval first) fun v => h.compareInRow heval v rest
  | both a b =>
      refine h.bind (heval a) fun v => h.bind (h.look _) fun holds => ?_
      cases holds with
      | false => exact h.value v
      | true => exact heval b
  | either a b =>
      refine h.bind (heval a) fun v => h.bind (h.look _) fun holds => ?_
      cases holds with
      | false => exact heval b
      | true => exact h.value v
  | not e => exact h.bind (heval e) fun _ => h.bind (h.look _) fun _ => h.value _
  | conditional test whenTrue whenFalse =>
      refine h.bind (heval test) fun _ => h.bind (h.look _) fun holds => ?_
      cases holds with
      | false => exact heval whenFalse
      | true => exact heval whenTrue
  | index e key => exact h.bind (heval e) fun _ => h.bind (heval key) fun _ => h.ask _
  | member e name => exact h.bind (heval e) fun v => h.attributeOf v name
  | call f args => exact h.bind (heval f) fun f => h.bind (h.each heval args) fun vs => ih.call f vs

theorem callStep (ih : Related reads binds R fuel fuel') (f : Value) (args : List Value) :
    R (call (fuel + 1) f args) (call (fuel' + 1) f args) := by
  cases f with
  | function a =>
      refine h.bind (h.look _) fun f => h.bind (h.ask _) fun _ => h.nested ?_
      refine h.bind (h.make _) fun frame => ?_
      refine h.bind (h.sequence (ih.exec (h.inCall frame)) f.body) fun flow => ?_
      cases flow with
      | next | leave | again | back _ => exact h.value _
  | builtin b => exact h.builtin b args
  | errorClass kind =>
      simp only [Script.call]
      exact h.make _
  | method m receiver => exact h.method m receiver args
  | none | bool _ | int _ | float _ | str _ | tuple _ | range _ _ _ | list _ | dict _ | error _ =>
      simp only [Script.call]
      exact h.ask _

theorem execStep (ih : Related reads binds R fuel fuel') (hfuel : fuel ≤ fuel') {place : Place}
    (hplace : binds place) (stmt : Stmt) :
    R (exec (fuel + 1) place stmt) (exec (fuel' + 1) place stmt) := by
  have heval := ih.eval (h.ofBinds hplace)
  have hblock := h.sequence (ih.exec hplace)
  cases stmt with
  | expr e => exact h.bind (heval e) fun _ => h.value _
  | assign targets e =>
      refine h.bind (heval e) fun v => ?_
      exact h.bind (h.eachDo (fun t => h.assign heval hplace t v) targets) fun _ => h.value _
  | augment target op e =>
      exact h.bind (h.augment heval hplace op e target) fun _ => h.value _
  | pass | «break» | «continue» => exact h.value _
  | define name params body =>
      refine h.bind (h.each heval _) fun defaults => ?_
      exact h.bind (h.makeFunction hplace name params body defaults) fun f =>
        h.bind (h.bindName hplace name f) fun _ => h.value _
  | branch test body orelse =>
      exact h.bind (heval test) fun _ => h.bind (h.look _) fun taken => hblock _
  | forEach target items body orelse =>
      refine h.bind (heval items) fun _ => h.bind (h.ask _) fun cursor => ?_
      refine h.bind (h.repeatOver (fun v => ?_) hfuel cursor) fun flow => ?_
      · exact h.bind (h.assign heval hplace target v) fun _ => hblock body
      · cases flow with
        | none => exact hblock orelse
        | some => exact h.value _
  | loop test body orelse =>
      refine h.bind (h.repeatWhile ?_ (hblock body) hfuel) fun flow => ?_
      · exact h.bind (heval test) fun _ => h.look _
      · cases flow with
        | none => exact hblock orelse
        | some => exact h.value _
  | «return» value =>
      cases value with
      | none => exact h.value _
      | some e => exact h.bind (heval e) fun _ => h.value _
  | raise value =>
      cases value with
      | none => exact h.fault _
      | some e => exact h.bind (heval e) fun v => h.raiseValue v

theorem related (hfuel : fuel ≤ fuel') : Related reads binds R fuel fuel' := by
  induction fuel generalizing fuel' with
  | zero => exact ⟨fun _ _ => h.exhausted _, fun _ _ => h.exhausted _, fun _ _ => h.exhausted _⟩
  | succ fuel ih =>
      obtain ⟨fuel', rfl⟩ : ∃ n, fuel' = n + 1 := ⟨fuel' - 1, by omega⟩
      have hfuel := Nat.le_of_succ_le_succ hfuel
      have ih := ih hfuel
      exact ⟨h.evalStep ih, h.callStep ih, h.execStep ih hfuel⟩

/-- Statements at top level, run with some fuel and with more. -/
theorem runAll (hplace : binds none) (hfuel : fuel ≤ fuel') (program : Program) :
    R (runAll fuel program) (runAll fuel' program) :=
  h.bind (h.sequence ((h.related hfuel).exec hplace) program) fun _ => h.value ()

end Evaluation

end Respected

end BlockWorkbench.Script
