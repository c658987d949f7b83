import BlockWorkbench.Proofs.Script.Data
import BlockWorkbench.Proofs.Worker.Calling

/-!
Functions that return their argument. The definitions of a unit are made anew before each call, so
which function a call finds depends on them: if the last one of the name just returns its parameter,
the call returns what the client gave, whatever the machine.
-/

namespace BlockWorkbench.Script

/-! ### What a client gives -/

/-- What is given, as a value of a store. -/
def Given.into (s : Store) : Given → Value × Store
  | .value x => (x, s)
  | .data v => s.ofJson v

/-- Whether the data `v` is given. -/
def Given.Holds (s : Store) (v : Json Points) : Given → Prop
  | .value x => s.Holds v x
  | .data w => w = v

theorem Given.take_apply (given : Given) (m : Machine) :
    given.take m = (.value (given.into m.store).1, { m with store := (given.into m.store).2 }) := by
  cases given <;> rfl

theorem Given.into_extends (given : Given) (s : Store) : s.Extends (given.into s).2 := by
  cases given with
  | value x => exact .refl s
  | data v => exact (s.ofJson_spec v).1

theorem Given.holds_into {given : Given} {s : Store} {v : Json Points} (h : given.Holds s v) :
    (given.into s).2.Holds v (given.into s).1 := by
  cases given with
  | value x => exact h
  | data w =>
      obtain rfl : w = v := h
      exact (s.ofJson_spec w).2

theorem Given.Holds.mono {given : Given} {s t : Store} {v : Json Points} (hs : s.Extends t)
    (h : given.Holds s v) : given.Holds t v := by
  cases given with
  | value x => exact Store.Holds.mono hs h
  | data w => exact h

/-! ### Calls that return their argument -/

namespace Machine

/-- Whether a call of `f` returns whatever is given, and leaves the lists and dictionaries as they
are. -/
def Returns (m : Machine) (fuel : Nat) (f : Value) : Prop :=
  ∀ given : Given, ∃ m', callWith fuel f [given] m = (.value (given.into m.store).1, m') ∧
    (given.into m.store).2.Extends m'.store

/-- Whether a call by name finds a function that returns its argument. -/
def Echoes (m : Machine) (fuel : Nat) (unit : Program) (name : String) : Prop :=
  ∃ m₀ f, m.rerun fuel (unit.filter Stmt.isDefinition) = (.value (), m₀) ∧
    m.store.Extends m₀.store ∧ bound? m₀.scope name = some f ∧ f.isCallable = true ∧
    m₀.Returns fuel f

variable {m : Machine} {fuel : Nat} {unit : Program} {name : String}

/-- Data that is given comes back, and what was held before still is. -/
theorem Echoes.callFunction (h : m.Echoes fuel unit name) {given : Given} {v : Json Points}
    (hgiven : given.Holds m.store v) :
    ∃ x m', m.callFunction fuel unit (.str name) [given] = (.ok x, m') ∧
      m.store.Extends m'.store ∧ m'.store.Holds v x := by
  obtain ⟨m₀, f, hrun, hgrown, hf, hcallable, hreturns⟩ := h
  obtain ⟨m', hcall, hkept⟩ := hreturns given
  have hvalue := (Given.holds_into (hgiven.mono hgrown)).mono hkept
  exact ⟨_, m', (callFunction_eq_ok m fuel).mpr ⟨m₀, f, hrun, hf, hcallable, hcall⟩,
    (hgrown.trans (given.into_extends m₀.store)).trans hkept, hvalue⟩

end Machine

/-! ### Calls under way -/

/-- Behind `x` as many calls are under way as before it. -/
def Run.KeepsDepth {α : Type} (x : Run α) : Prop := ∀ m, (x m).2.depth = m.depth

theorem Run.KeepsDepth.bind {α β : Type} {x : Run α} {f : α → Run β} (hx : x.KeepsDepth)
    (hf : ∀ a, (f a).KeepsDepth) : (x >>= f).KeepsDepth := by
  intro m
  have hfirst := hx m
  rw [bind_apply]
  cases hxm : x m with | mk out m' =>
  rw [hxm] at hfirst
  cases out with
  | value a => exact (hf a m').trans hfirst
  | raised r => exact hfirst
  | exhausted => exact hfirst

theorem respected_keepsDepth : Respected (fun _ => True) (fun _ => True)
    fun x _ => x.KeepsDepth where
  ofBinds := id
  inCall _ := trivial
  value _ := fun _ => rfl
  raised _ := fun _ => rfl
  exhausted _ := fun _ => rfl
  bind := Run.KeepsDepth.bind
  nested := by
    intro α x _ _ m
    unfold Run.nested
    split <;> rfl
  ask question := by
    intro m
    unfold Run.ask
    split <;> rfl
  act step := by
    intro m
    unfold Run.act
    split <;> rfl
  nameValue _ name := by
    intro m
    unfold Run.nameValue
    split <;> rfl
  bindName {place} _ name v := by
    intro m
    cases place <;> rfl
  makeFunction _ _ _ _ _ := fun _ => rfl
  register kind spec := by
    intro m
    unfold registerModule
    split <;> rfl
  manifest callee := by
    intro m
    rw [callManifest_nil]
    split <;> rfl

theorem keepsDepth_callWith (fuel : Nat) (f : Value) (given : List Given) :
    (callWith fuel f given).KeepsDepth := by
  have htake (given : Given) : given.take.KeepsDepth := by
    cases given <;> exact fun _ => rfl
  exact .bind (respected_keepsDepth.each (g := Given.take) htake given) fun args =>
    (respected_keepsDepth.related le_rfl).call f args

/-- A call by name that is over is not under way any more. -/
theorem Machine.depth_callFunction (m : Machine) (fuel : Nat) (unit : Program) (name : Json)
    (given : List Given) : (m.callFunction fuel unit name given).2.depth = m.depth := by
  have hdefined : (m.rerun fuel (unit.filter Stmt.isDefinition)).2.depth = m.depth :=
    Run.KeepsDepth.bind (fun _ => rfl)
      (fun _ => respected_keepsDepth.runAll trivial le_rfl (unit.filter Stmt.isDefinition)) m
  have hvalue (m₀ : Machine) (f : Value) :
      (m₀.callValue fuel f name given).2.depth = m₀.depth := by
    have hcall := keepsDepth_callWith fuel f given m₀
    rw [callValue]
    split
    · simp_all
    · dsimp only
      split
      · simp_all
      · split <;> simp_all
    · simp_all
  have hrerun : m.rerun fuel (unit.filter Stmt.isDefinition) =
      (do Run.restoreNames; runAll fuel (unit.filter Stmt.isDefinition) : Run Unit) m := rfl
  rw [callFunction, ← hrerun]
  cases hrun : m.rerun fuel (unit.filter Stmt.isDefinition) with | mk out m₀ =>
  rw [hrun] at hdefined
  cases out with
  | value _ =>
      dsimp only
      split
      · exact (hvalue m₀ _).trans hdefined
      · exact hdefined
  | raised _ | exhausted => exact hdefined

/-! ### Definitions -/

namespace Store

mutual

/-- Data makes no functions. -/
theorem functions_ofJson (s : Store) (v : Json Points) : (s.ofJson v).2.functions = s.functions := by
  cases v with
  | null | bool _ | int _ | float _ | str _ => rfl
  | list items => exact functions_ofJsonItems s items
  | object fields => exact functions_ofJsonFields s fields

theorem functions_ofJsonItems (s : Store) (items : List (Json Points)) :
    (s.ofJsonItems items).2.functions = s.functions := by
  cases items with
  | nil => rfl
  | cons v rest => exact (functions_ofJsonItems (s.ofJson v).2 rest).trans (functions_ofJson s v)

theorem functions_ofJsonFields (s : Store) (fields : List (Points × Json Points)) :
    (s.ofJsonFields fields).2.functions = s.functions := by
  cases fields with
  | nil => rfl
  | cons field rest =>
      exact (functions_ofJsonFields (s.ofJson field.2).2 rest).trans (functions_ofJson s field.2)

end

end Store

theorem bind_value {α β : Type} {x : Run α} {m m' : Machine} {a : α} (h : x m = (.value a, m'))
    (f : α → Run β) : (x >>= f) m = f a m' := by
  rw [bind_apply, h]

theorem Run.nested_value {α : Type} {x : Run α} {m m' : Machine} {a : α}
    (hdepth : m.depth < callLimit) (h : x { m with depth := m.depth + 1 } = (.value a, m')) :
    x.nested m = (.value a, { m' with depth := m.depth }) := by
  simp only [nested, if_neg (Nat.not_le.mpr hdepth), h]

theorem Store.extends_addFunction (s : Store) (f : FunctionObject) :
    s.Extends (s.addFunction f).2 :=
  ⟨fun _ _ h => h, fun _ _ h => h⟩

theorem Store.extends_addFrame (s : Store) (f : Frame) : s.Extends (s.addFrame f).2 :=
  ⟨fun _ _ h => h, fun _ _ h => h⟩

/-- The definition of a function that returns its argument. -/
def echoDefinition (name param : String) : Stmt :=
  .define name [⟨param, none⟩] [.return (some (.name param))]

/-- The function that it makes. -/
def echoObject (path param : String) (names : Value) : FunctionObject :=
  ⟨path, [param], [], [.return (some (.name param))], [param], none, names⟩

/-- Whether a statement is a definition without defaults, so that nothing is evaluated when it is
made. -/
def Stmt.HasNoDefaults : Stmt → Prop
  | .define _ params _ => ∀ p ∈ params, p.default? = none
  | _ => False

/-- Units whose definitions have no defaults, the last one of the name being that of a function that
returns its argument. -/
structure DefinesEcho (unit : Program) (name : String) : Prop where
  plain : ∀ stmt ∈ unit.filter Stmt.isDefinition, stmt.HasNoDefaults
  last : ∃ before param behind,
    unit.filter Stmt.isDefinition = before ++ echoDefinition name param :: behind ∧
    ∀ params body, .define name params body ∉ behind

/-- In the frame of a call, the body of such a function returns what the parameter is bound to. -/
theorem sequence_echoObject (fuel : Nat) {path param : String} {names : Value}
    {m : Machine} {a : Address} {x : Value}
    (hframe : m.store.frame a = ⟨path, [param], [(param, x)], none, names⟩) :
    Flow.sequence (exec (fuel + 2) (some a)) (echoObject path param names).body m =
      (.value (.back x), m) := by
  have hname : Run.nameValue (some a) param m = (.value x, m) := by
    simp [Run.nameValue, Machine.valueOf, hframe, bound?]
  simp only [echoObject, Flow.sequence, bind_apply, exec, eval, hname]
  rfl

/-- A call of such a function returns its argument. -/
theorem call_echoObject (fuel : Nat) {path param : String} {names : Value} {m : Machine}
    {a : Address} (ha : m.store.functions[a]? = some (echoObject path param names))
    (hdepth : m.depth < callLimit) (x : Value) :
    ∃ m', call (fuel + 3) (.function a) [x] m = (.value x, m') ∧ m.store.Extends m'.store := by
  have hfunction : m.store.function a = echoObject path param names := by
    rw [Store.function, Array.getD_eq_getD_getElem?, ha, Option.getD_some]
  have hbind : bindArguments (echoObject path param names) [x] = .ok [(param, x)] := rfl
  let frame : Frame := ⟨path, [param], [(param, x)], none, names⟩
  let m₁ : Machine := { m with depth := m.depth + 1, store := (m.store.addFrame frame).2 }
  have hframe : m₁.store.frame m.store.frames.size = frame := by
    simp [m₁, Store.frame, Store.addFrame]
  have hbody := sequence_echoObject fuel hframe
  refine ⟨{ m₁ with depth := m.depth }, ?_, m.store.extends_addFrame frame⟩
  rw [call, bind_apply]
  simp only [Run.look, hfunction]
  rw [bind_apply]
  simp only [Run.ask, hbind]
  refine Run.nested_value hdepth ?_
  rw [bind_apply]
  exact bind_value hbody _

theorem sequence_append {α : Type} {run : α → Run Flow} {as : List α} {m m' : Machine}
    (h : Flow.sequence run as m = (.value .next, m')) (bs : List α) :
    Flow.sequence run (as ++ bs) m = Flow.sequence run bs m' := by
  induction as generalizing m with
  | nil =>
      cases h
      rfl
  | cons a as ih =>
      rw [Flow.sequence, bind_apply] at h
      rw [List.cons_append, Flow.sequence, bind_apply]
      cases ha : run a m with | mk out m₁ =>
      rw [ha] at h
      cases out with
      | value flow =>
          cases flow with
          | next => exact ih h
          | leave | again | back _ => cases h
      | raised _ | exhausted => cases h

namespace Machine

/-- Whether a name is bound to a function that returns its argument. -/
def HasEcho (m : Machine) (name : String) : Prop :=
  ∃ a path param names, bound? m.scope name = some (.function a) ∧
    m.store.functions[a]? = some (echoObject path param names)

variable {m : Machine} {fuel : Nat} {unit : Program} {name : String}

/-- The definition of another function keeps it. -/
theorem HasEcho.define (h : m.HasEcho name) {other : String} (hother : other ≠ name)
    (f : FunctionObject) :
    (m.define other f).HasEcho name := by
  obtain ⟨a, path, param, names, hbound, ha⟩ := h
  refine ⟨a, path, param, names, ?_, Store.getElem?_push_of_some ha f⟩
  rw [scope_define, bound?_bind, if_neg hother.symm, hbound]

theorem hasEcho_define (m : Machine) (name param : String) (names : Value) :
    (m.define name (echoObject name param names)).HasEcho name := by
  refine ⟨_, name, param, names, ?_, Array.getElem?_push_size⟩
  rw [scope_define, bound?_bind, if_pos rfl]

theorem exec_echoDefinition (fuel : Nat) (name param : String) (m : Machine) :
    exec (fuel + 1) none (echoDefinition name param) m = (.value .next,
      m.define name (echoObject name param m.namesAtHand)) :=
  exec_define fuel name _ (by simp) m

theorem HasEcho.returns (h : m.HasEcho name) (hdepth : m.depth < callLimit) (fuel : Nat) :
    ∃ f, bound? m.scope name = some f ∧ f.isCallable = true ∧ m.Returns (fuel + 3) f := by
  obtain ⟨a, path, param, names, hbound, ha⟩ := h
  refine ⟨.function a, hbound, rfl, fun given => ?_⟩
  have hfunctions : (given.into m.store).2.functions = m.store.functions := by
    cases given with
    | value x => rfl
    | data v => exact m.store.functions_ofJson v
  obtain ⟨m', hcall, hkept⟩ := call_echoObject fuel
    (m := { m with store := (given.into m.store).2 }) (hfunctions ▸ ha) hdepth
    (given.into m.store).1
  refine ⟨m', ?_, hkept⟩
  rw [callWith, Run.each]
  simp only [bind_apply, given.take_apply]
  exact hcall

/-- Definitions without defaults change no list or dictionary, and keep a function that
returns its argument unless they define its name. -/
theorem sequence_definitions (name : String) (fuel : Nat) {program : Program}
    (hplain : ∀ stmt ∈ program, stmt.HasNoDefaults) (m : Machine) :
    ∃ m', Flow.sequence (exec (fuel + 1) none) program m = (.value .next, m') ∧
      m.store.Extends m'.store ∧ m'.depth = m.depth ∧
      ((∀ params body, .define name params body ∉ program) → m.HasEcho name → m'.HasEcho name) := by
  induction program generalizing m with
  | nil => exact ⟨m, rfl, .refl _, rfl, fun _ h => h⟩
  | cons stmt rest ih =>
      obtain ⟨hstmt, hrest⟩ := List.forall_mem_cons.mp hplain
      cases stmt with
      | define n params body =>
          have hstep := exec_define fuel n body hstmt m
          obtain ⟨m', hrun, hgrown, hdepth, hkept⟩ := ih hrest (m.define n _)
          refine ⟨m', ?_, (m.store.extends_addFunction _).trans hgrown, hdepth, ?_⟩
          · rw [Flow.sequence, bind_value hstep]
            exact hrun
          · intro hnew hm
            have hother : n ≠ name := by
              rintro rfl
              exact hnew params body List.mem_cons_self
            exact hkept (fun params body h => hnew params body (List.mem_cons_of_mem _ h))
              (hm.define hother _)
      | _ => exact hstmt.elim

/-- Behind the definitions of such a unit the name is bound to a function that returns its
argument. -/
theorem echoes_of_definesEcho (h : DefinesEcho unit name) (m : Machine)
    (hdepth : m.depth < callLimit) {fuel : Nat} (hfuel : 3 ≤ fuel) :
    m.Echoes fuel unit name := by
  obtain ⟨fuel, rfl⟩ : ∃ n, fuel = n + 3 := ⟨fuel - 3, by omega⟩
  obtain ⟨before, param, behind, hunit, hlast⟩ := h.last
  have hplain := h.plain
  rw [hunit, List.forall_mem_append, List.forall_mem_cons] at hplain
  obtain ⟨hbefore, -, hbehind⟩ := hplain
  obtain ⟨m₁, hrun₁, hgrown₁, hdepth₁, -⟩ :=
    sequence_definitions name (fuel + 2) hbefore m.restored
  have hrun := exec_echoDefinition (fuel + 2) name param m₁
  obtain ⟨m₂, hrun₂, hgrown₂, hdepth₂, hkept⟩ := sequence_definitions name (fuel + 2)
    hbehind (m₁.define name (echoObject name param m₁.namesAtHand))
  have hdepth' : m₂.depth < callLimit := by
    rw [hdepth₂]
    exact hdepth₁ ▸ hdepth
  obtain ⟨f, hbound, hcallable, hreturns⟩ :=
    (hkept hlast (hasEcho_define m₁ name param _)).returns hdepth' fuel
  refine ⟨m₂, f, ?_, ?_, hbound, hcallable, hreturns⟩
  · have hsequence : Flow.sequence (exec (fuel + 3) none) (unit.filter Stmt.isDefinition)
        m.restored = (.value .next, m₂) := by
      rw [hunit, sequence_append hrun₁, Flow.sequence, bind_value hrun]
      exact hrun₂
    rw [rerun, bind_value m.restoreNames_apply, runAll, bind_value hsequence]
    rfl
  · exact hgrown₁.trans ((m₁.store.extends_addFunction _).trans hgrown₂)

end Machine

end BlockWorkbench.Script
