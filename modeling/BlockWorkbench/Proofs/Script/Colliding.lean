import BlockWorkbench.Proofs.Script.Handlers
import BlockWorkbench.Proofs.Script.Parts
import BlockWorkbench.Proofs.Script.Registering

/-!
Scripts that register modules whose code defines a handler each. A handler takes the place of what
had its name before, so the script succeeds exactly if no handler has the name of the function
that registers a module behind it.
-/

namespace BlockWorkbench.Script

theorem bind_raised {α β : Type} {x : Run α} {f : α → Run β} {m m' : Machine} {r : Raised}
    (h : x m = (.raised r, m')) : (x >>= f) m = (.raised r, m') := by
  rw [bind_apply, h]

theorem Run.nested_raises {α : Type} {x : Run α} {m : Machine}
    (h : ∃ r m', x { m with depth := m.depth + 1 } = (.raised r, m')) :
    ∃ r m', x.nested m = (.raised r, m') := by
  obtain ⟨r, m', hx⟩ := h
  unfold Run.nested
  split
  · exact ⟨_, _, rfl⟩
  · rw [hx]
    exact ⟨_, _, rfl⟩

namespace HandlerForm

variable (f : HandlerForm)

/-- The function that a handler is. -/
def object (path : String) (names : Value) : FunctionObject :=
  ⟨path, f.params, [], f.body, f.params ++ boundNames f.body, none, names⟩

/-- A map fails on a dictionary that has no number. -/
theorem sequence_body_raises (fuel : Nat) {m : Machine} {a d : Address} {frame : Frame}
    (hframe : m.store.frame a = frame) (hlocals : frame.locals = map.params)
    (hbindings : frame.bindings = [(blockName, .dict d)])
    (hnumber : valueAt? (m.store.entries d) (.str (.ofString "number")) = none) :
    ∃ r, Flow.sequence (exec (fuel + 4) (some a)) map.body m = (.raised r, m) := by
  have hname : eval (fuel + 2) (some a) (.name blockName) m = (.value (.dict d), m) := by
    simp only [eval, Run.nameValue, Machine.valueOf, hframe, hlocals, hbindings]
    rfl
  have hitem : m.store.item (.dict d) (.str (.ofString "number")) =
      .error (.missingKey (.str (.ofString "number"))) := by
    simp only [Store.item, Value.asKey, Value.unhashable?, ok_bind, hnumber]
    rfl
  have hindex : eval (fuel + 3) (some a) (.index (.name blockName) (.str (.ofString "number"))) m =
      (.raised (.fault (.missingKey (.str (.ofString "number")))), m) := by
    rw [eval, bind_apply, hname]
    simp only [eval, Run.value, bind_apply, Run.ask, hitem]
  refine ⟨.fault (.missingKey (.str (.ofString "number"))), ?_⟩
  simp only [body, Flow.sequence, bind_apply, exec, hindex]

/-- A handler is called neither without arguments nor with a dictionary that has no number. -/
theorem call_raises (fuel : Nat) {path : String} {names : Value} {m : Machine}
    {a : Address} (ha : m.store.functions[a]? = some (f.object path names)) {args : List Value}
    (hargs : args = [] ∨ ∃ d, args = [.dict d] ∧
      valueAt? (m.store.entries d) (.str (.ofString "number")) = none) :
    ∃ r m', call (fuel + 5) (.function a) args m = (.raised r, m') := by
  have hfunction : m.store.function a = f.object path names := by
    rw [Store.function, Array.getD_eq_getD_getElem?, ha, Option.getD_some]
  rw [call, bind_apply]
  simp only [Run.look, hfunction]
  rw [bind_apply]
  obtain rfl | ⟨d, rfl, hnumber⟩ := hargs
  · cases f <;> exact ⟨_, _, rfl⟩
  · cases f with
    | store source => exact ⟨_, _, rfl⟩
    | map =>
        have hbind : bindArguments (map.object path names) [.dict d] =
            .ok [(blockName, .dict d)] := rfl
        simp only [Run.ask, hbind]
        refine Run.nested_raises ?_
        rw [bind_apply]
        simp only [Run.make, Store.addFrame]
        obtain ⟨r, hbody⟩ := sequence_body_raises fuel (a := m.store.frames.size) (d := d) (m := {
          m with
          depth := m.depth + 1
          store := { m.store with
            frames := m.store.frames.push ⟨path, map.params ++ boundNames map.body,
              [(blockName, .dict d)], none, names⟩ } })
          (by simp [Store.frame]; rfl) rfl rfl hnumber
        exact ⟨r, _, bind_raised hbody⟩

end HandlerForm

/-- Whether no handler before a module has the name of the function that registers it, where
`handlers` are those before all. -/
def Clear (handlers : List String) : List Module → Prop
  | [] => True
  | m :: rest => m.kind.registerFunction ∉ handlers ∧ Clear (handlers ++ [m.name]) rest

theorem clear_iff {handlers : List String} {ms : List Module} :
    Clear handlers ms ↔ (∀ m ∈ ms, m.kind.registerFunction ∉ handlers) ∧
      ms.Pairwise fun a b => a.name ≠ b.kind.registerFunction := by
  induction ms generalizing handlers with
  | nil => simp [Clear]
  | cons m rest ih =>
      simp only [Clear, ih, List.mem_append, List.mem_singleton, List.forall_mem_cons,
        List.pairwise_cons, not_or, forall_and]
      grind

/-- What the definition of a handler does. -/
theorem HandlerForm.exec_definition (f : HandlerForm) (fuel : Nat) (name : String) (m : Machine) :
    exec (fuel + 1) none (f.definition name) m = (.value .next, { m with
      store := { m.store with
        functions := m.store.functions.push (f.object name m.namesAtHand) }
      scope := bind m.scope name (.function m.store.functions.size) }) := by
  have hparams : (f.params.map fun p => (⟨p, none⟩ : Param)).map (·.name) = f.params := by
    simp [Function.comp_def]
  rw [HandlerForm.definition, exec_define fuel name _ (by simp), hparams]
  rfl

/-- What a registration does where its function is predefined and its name not bound. -/
theorem exec_registration {m : Machine} {mod : Module} {sources : List InputSource} (fuel : Nat)
    (hname : mod.name ≠ "") (hsources : ∀ source ∈ sources, Named source)
    (hfree : bound? m.scope mod.kind.registerFunction = none) (hnames : m.names = .predefinedDict)
    (hoffered : m.store.Offers (.registering mod.kind)) :
    exec (fuel + 7) none (.expr (registrationCall mod sources)) m = (.value .next, { m with
      store := registrationStore m.store mod sources
      registry := m.registry.put (registered mod sources) }) := by
  rw [exec, bind_apply, eval_registrationCall fuel hname hsources hfree hnames hoffered]
  rfl

namespace Machine

/-- The names at top level are those of handlers, each bound to the function that it is, besides
that of the predefined names, which are what they are at the start. -/
structure HasHandlers (m : Machine) (handlers : List String) : Prop where
  names : m.names = .predefinedDict
  intact : m.store.Intact
  unbound : ∀ name, name ∉ handlers → name ≠ predefinedNames → bound? m.scope name = none
  bound : ∀ name ∈ handlers, ∃ a f path names, bound? m.scope name = some (.function a) ∧
    m.store.functions[a]? = some (HandlerForm.object f path names)

namespace HasHandlers

variable {m : Machine} {handlers : List String}

/-- What a run at the start begins with. -/
theorem empty : HasHandlers (restored {}) [] :=
  ⟨rfl, rfl, fun _ _ hne => bound?_restored {} hne, by simp⟩

/-- A definition of a handler adds it. -/
theorem define (h : m.HasHandlers handlers) (fuel : Nat) (f : HandlerForm) (name : String) :
    ∃ m', exec (fuel + 1) none (f.definition name) m = (.value .next, m') ∧
      m'.HasHandlers (handlers ++ [name]) ∧ m'.registry = m.registry := by
  refine ⟨_, f.exec_definition fuel name m,
    ⟨h.names, h.intact, fun other hother hne => ?_, fun other hother => ?_⟩, rfl⟩
  · rw [List.mem_append, List.mem_singleton, not_or] at hother
    rw [bound?_bind, if_neg hother.2]
    exact h.unbound other hother.1 hne
  · rw [bound?_bind]
    by_cases hname : other = name
    · rw [if_pos hname]
      exact ⟨_, f, _, _, rfl, Array.getElem?_push_size⟩
    · rw [if_neg hname]
      obtain ⟨a, f', path, names, hbound, ha⟩ := h.bound other (by simpa [hname] using hother)
      refine ⟨a, f', path, names, hbound, ?_⟩
      obtain ⟨hlt, -⟩ := Array.getElem?_eq_some_iff.mp ha
      rw [Array.getElem?_push_lt hlt]
      exact (Array.getElem?_eq_getElem hlt).symm.trans ha

variable {mod : Module} {sources : List InputSource}

/-- A registration changes no name, if its function is not that of a handler. -/
theorem register (h : m.HasHandlers handlers) (fuel : Nat) (hname : mod.name ≠ "")
    (hsources : ∀ source ∈ sources, Named source)
    (hfree : mod.kind.registerFunction ∉ handlers) :
    ∃ m', exec (fuel + 7) none (.expr (registrationCall mod sources)) m = (.value .next, m') ∧
      m'.HasHandlers handlers ∧ m'.registry = m.registry.put (registered mod sources) :=
  ⟨_, exec_registration fuel hname hsources
      (h.unbound _ hfree (by cases mod.kind <;> simp [ModuleKind.registerFunction, predefinedNames]))
      h.names (h.intact.offers (by cases mod.kind <;> rfl)),
    ⟨h.names, h.intact.registrationStore mod sources, h.unbound, h.bound⟩, rfl⟩

/-- A registration fails if it calls a handler. -/
theorem register_raises (h : m.HasHandlers handlers) (fuel : Nat)
    (htaken : mod.kind.registerFunction ∈ handlers) :
    ∃ r m', exec (fuel + 7) none (.expr (registrationCall mod sources)) m = (.raised r, m') := by
  obtain ⟨a, f, path, names, hbound, ha⟩ := h.bound _ htaken
  have hname : eval (fuel + 5) none (.name mod.kind.registerFunction) m =
      (.value (.function a), m) := by
    rw [eval, nameValue_of_bound hbound]
  have hentries : (registrationStore m.store mod sources).entries
      (m.store.dicts.size + sources.length) = registrationEntries mod m.store.lists.size := by
    simp [registrationStore, Store.entries]
  obtain ⟨r, m', hcall⟩ : ∃ r m', call (fuel + 5) (.function a)
      [.dict (m.store.dicts.size + sources.length)]
      { m with store := registrationStore m.store mod sources } = (.raised r, m') :=
    f.call_raises fuel (m := { m with store := registrationStore m.store mod sources }) ha
      (.inr ⟨_, rfl, by rw [hentries]; rfl⟩)
  have hargs : Run.each (eval (fuel + 5) none) [.dict [(.str (written "name"),
      .str (written mod.name)), (.str (written "inputs"), .list (sources.map inputExpr)),
      (.str (written "handler"), .str (written mod.name))]] m =
      (.value [.dict (m.store.dicts.size + sources.length)],
        { m with store := registrationStore m.store mod sources }) := by
    simp only [Run.each, bind_apply, eval_registrationEntries]
    rfl
  refine ⟨r, m', ?_⟩
  rw [exec, bind_apply, registrationCall, eval, bind_apply, hname]
  simp only [bind_apply, hargs, hcall]

end HasHandlers

end Machine

/-- A module whose code defines its handler and nothing else. -/
def Draft.Handles (p : Draft) : Prop := ∃ f : HandlerForm, p.program = [f.definition p.module.name]

section Running

variable (fuel : Nat) {drafts : List Draft} {m : Machine} {handlers : List String}

/-- A module is registered and its handler added, whatever follows. -/
theorem sequence_unit (h : m.HasHandlers handlers) {p : Draft} (hp : p.Handles)
    (hfree : p.module.kind.registerFunction ∉ handlers) :
    ∃ m' : Machine, (∀ rest, Flow.sequence (exec (fuel + 7) none) (p.unit ++ rest) m =
        Flow.sequence (exec (fuel + 7) none) rest m') ∧
      m'.HasHandlers (handlers ++ [p.module.name]) ∧
      m'.registry = m.registry.put (registered p.module p.sources) := by
  obtain ⟨f, hf⟩ := hp
  obtain ⟨m₁, hregister, h₁, hregistry₁⟩ := h.register fuel p.named p.sourcesNamed hfree
  obtain ⟨m', hdefine, h', hregistry'⟩ := h₁.define (fuel + 6) f p.module.name
  refine ⟨m', fun rest => ?_, h', hregistry'.trans hregistry₁⟩
  simp only [Draft.unit, hf, List.cons_append, List.nil_append, Flow.sequence, bind_apply,
    hregister, hdefine]

theorem sequence_clear (hdrafts : ∀ p ∈ drafts, p.Handles) (h : m.HasHandlers handlers)
    (hclear : Clear handlers (drafts.map (·.module))) :
    ∃ m', Flow.sequence (exec (fuel + 7) none) (drafts.flatMap Draft.unit) m =
        (.value .next, m') ∧
      m'.HasHandlers (handlers ++ drafts.map (·.module.name)) ∧
      m'.registry = (drafts.map fun p => registered p.module p.sources).foldl Registry.put
        m.registry := by
  induction drafts generalizing m handlers with
  | nil => exact ⟨m, rfl, by simpa using h, rfl⟩
  | cons p rest ih =>
      obtain ⟨hfree, hclear⟩ := hclear
      obtain ⟨m₁, hunit, h₁, hregistry₁⟩ :=
        sequence_unit fuel h (hdrafts p List.mem_cons_self) hfree
      obtain ⟨m', hrest, h', hregistry'⟩ :=
        ih (fun q hq => hdrafts q (List.mem_cons_of_mem p hq)) h₁ hclear
      refine ⟨m', ?_, by simpa using h', by simp [hregistry', hregistry₁]⟩
      rw [List.flatMap_cons, hunit, hrest]

theorem sequence_raises (hdrafts : ∀ p ∈ drafts, p.Handles) (h : m.HasHandlers handlers)
    (hclear : ¬ Clear handlers (drafts.map (·.module))) :
    ∃ r m', Flow.sequence (exec (fuel + 7) none) (drafts.flatMap Draft.unit) m =
      (.raised r, m') := by
  induction drafts generalizing m handlers with
  | nil => exact absurd trivial hclear
  | cons p rest ih =>
      by_cases hfree : p.module.kind.registerFunction ∈ handlers
      · obtain ⟨r, m', hraise⟩ : ∃ r m', exec (fuel + 7) none
            (.expr (registrationCall p.module p.sources)) m = (.raised r, m') :=
          h.register_raises fuel hfree
        exact ⟨r, m', bind_raised hraise⟩
      · obtain ⟨m₁, hunit, h₁, -⟩ := sequence_unit fuel h (hdrafts p List.mem_cons_self) hfree
        obtain ⟨r, m', hrest⟩ := ih (fun q hq => hdrafts q (List.mem_cons_of_mem p hq)) h₁
          fun hrest => hclear ⟨hfree, hrest⟩
        exact ⟨r, m', by rw [List.flatMap_cons, hunit, hrest]⟩

theorem splitResult_drafts (hdrafts : ∀ p ∈ drafts, p.Handles) :
    splitResult (drafts.flatMap Draft.unit) = (drafts.flatMap Draft.unit, none) := by
  obtain rfl | ⟨init, p, rfl⟩ := List.eq_nil_or_concat drafts
  · rfl
  · obtain ⟨f, hf⟩ := hdrafts p (by simp)
    simp [splitResult, Draft.unit, hf, HandlerForm.definition]

/-- A script at the start that ends with no expression does what its statements do. -/
theorem evalProgram_of_sequence {program : Program} (hsplit : splitResult program = (program, none))
    {m' : Machine}
    (hrun : Flow.sequence (exec fuel none) program (Machine.restored {}) = (.value .next, m')) :
    evalProgram fuel program {} = (.value .none, m') := by
  simp only [evalProgram, hsplit, bind_apply, Machine.restoreNames_apply, runAll, hrun]
  rfl

theorem evalProgram_of_sequence_raised {program : Program}
    (hsplit : splitResult program = (program, none)) {r : Raised} {m' : Machine}
    (hrun : Flow.sequence (exec fuel none) program (Machine.restored {}) = (.raised r, m')) :
    evalProgram fuel program {} = (.raised r, m') := by
  simp only [evalProgram, hsplit, bind_apply, Machine.restoreNames_apply, runAll, hrun]

theorem evalProgram_clear (hdrafts : ∀ p ∈ drafts, p.Handles)
    (hclear : Clear [] (drafts.map (·.module))) :
    ∃ m', evalProgram (fuel + 7) (drafts.flatMap Draft.unit) {} = (.value .none, m') ∧
      m'.HasHandlers (drafts.map (·.module.name)) ∧
      m'.registry = (drafts.map fun p => registered p.module p.sources).foldl Registry.put [] := by
  obtain ⟨m', hrun, hhandlers, hregistry⟩ := sequence_clear fuel hdrafts .empty hclear
  exact ⟨m', evalProgram_of_sequence _ (splitResult_drafts hdrafts) hrun, hhandlers, hregistry⟩

theorem evalProgram_raises (hdrafts : ∀ p ∈ drafts, p.Handles)
    (hclear : ¬ Clear [] (drafts.map (·.module))) :
    ∃ r m', evalProgram (fuel + 7) (drafts.flatMap Draft.unit) {} = (.raised r, m') := by
  obtain ⟨r, m', hrun⟩ := sequence_raises fuel hdrafts .empty hclear
  exact ⟨r, m', evalProgram_of_sequence_raised _ (splitResult_drafts hdrafts) hrun⟩

end Running

end BlockWorkbench.Script
