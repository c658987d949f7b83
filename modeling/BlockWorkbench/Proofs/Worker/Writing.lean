import BlockWorkbench.Proofs.Manifest
import BlockWorkbench.Proofs.Script.Registering
import BlockWorkbench.Proofs.Worker.Reading

/-!
What a build says. Where the name of the function that writes the manifest is not bound, and is
predefined as the engine does it, a build says the manifest of the registered modules, or why there
is none. Of all that scripts have made it depends on nothing else but the registry and how the names
are written that inputs carry.
-/

namespace BlockWorkbench

namespace Script

/-! ### Faults that say the same in every store -/

/-- Whether a computation that fails says why without a value of the store. -/
def Textual {α : Type} (x : Except RuntimeFault α) : Prop := ∀ key, x ≠ .error (.missingKey key)

section Textual

variable {α β : Type}

theorem Textual.ok (a : α) : Textual (.ok a) := fun _ h => by cases h

theorem Textual.bind {x : Except RuntimeFault α} {f : α → Except RuntimeFault β} (hx : Textual x)
    (hf : ∀ a, Textual (f a)) : Textual (x >>= f) := by
  intro key h
  obtain h | ⟨a, -, h⟩ := bind_eq_error.mp h
  · exact hx key h
  · exact hf a key h

theorem Textual.of_fault {f : RuntimeFault} (h : ∀ key, f ≠ .missingKey key) :
    Textual (.error f : Except RuntimeFault α) := fun key hkey => h key (Except.error.inj hkey)

theorem textual_eachText {text : α → Except RuntimeFault String} (h : ∀ a, Textual (text a))
    (as : List α) : Textual (Store.eachText text as) := by
  induction as with
  | nil => exact .ok _
  | cons a rest ih => exact (h a).bind fun _ => ih.bind fun _ => .ok _

theorem textual_integerText (n : Int) : Textual (integerText n) := by
  unfold integerText
  split
  · exact .of_fault (by simp)
  · exact .ok _

theorem textual_rangeText (start stop step : Int) : Textual (rangeText start stop step) := by
  refine (textual_integerText start).bind fun _ => (textual_integerText stop).bind fun _ => ?_
  split
  · exact .ok _
  · exact (textual_integerText step).bind fun _ => .ok _

theorem textual_literalWithin (s : Store) (depth : Nat) (lists dicts : List Address) (v : Value) :
    Textual (s.literalWithin depth lists dicts v) := by
  induction depth generalizing lists dicts v with
  | zero => exact .of_fault (by simp)
  | succ depth ih =>
      unfold Store.literalWithin
      split
      · exact .ok _
      · exact .ok _
      · exact .ok _
      · exact textual_integerText _
      · exact .ok _
      · exact .ok _
      · exact (ih _ _ _).bind fun _ => .ok _
      · exact (textual_eachText (ih _ _) _).bind fun _ => .ok _
      · exact textual_rangeText _ _ _
      · split
        · exact .ok _
        · exact (textual_eachText (ih _ _) _).bind fun _ => .ok _
      · split
        · exact .ok _
        · refine (textual_eachText (fun entry => ?_) _).bind fun _ => .ok _
          exact (ih _ _ _).bind fun _ => (ih _ _ _).bind fun _ => .ok _
      · exact .ok _
      · exact .ok _
      · exact .ok _
      · exact (textual_eachText (ih _ _) _).bind fun _ => .ok _
      · exact .ok _

end Textual

namespace Registry

/-- The names that the inputs of registered modules carry. -/
def inputNames (r : Registry) : List Value := r.flatMap fun m => m.inputs.map (·.name)

variable (r : Registry) (s : Store)

theorem textual_link? (m : Registration) (input : RegisteredInput) :
    Textual (r.link? s m input) := by
  unfold link?
  split
  · exact .ok _
  · refine Textual.bind (fun key h => ?_) fun name => (textual_literalWithin _ _ _ _ _).bind
      fun text => ?_
    · unfold Value.asKey at h
      split at h <;> cases h
    · split
      · split
        · split
          · exact .ok _
          · exact .of_fault (by simp)
        · exact .of_fault (by simp)
      · exact .of_fault (by simp)

theorem textual_linksOf (m : Registration) (inputs : List RegisteredInput) :
    Textual (r.linksOf s m inputs) := by
  induction inputs with
  | nil => exact .ok _
  | cons input rest ih => exact (textual_link? r s m input).bind fun _ => ih.bind fun _ => .ok _

theorem textual_links (ms : List Registration) : Textual (r.links s ms) := by
  induction ms with
  | nil => exact .ok _
  | cons m rest ih => exact (textual_linksOf r s m m.inputs).bind fun _ => ih.bind fun _ => .ok _

theorem textual_manifestText : Textual (r.manifestText s) := by
  refine Textual.bind (Textual.bind ?_ fun _ => .ok _) fun _ => .ok _
  refine (textual_links r s r).bind fun _ => ?_
  split
  · exact .ok _
  · exact .of_fault (by simp)

variable {r s} {s' : Store}

theorem link?_congr (m : Registration) {input : RegisteredInput}
    (h : s'.literal input.name = s.literal input.name) :
    r.link? s' m input = r.link? s m input := by
  unfold link?
  split
  · rfl
  · cases hkey : input.name.asKey with
    | error f => simp only [error_bind]
    | ok key =>
        cases asKey_eq_ok hkey
        simp only [ok_bind, h]

theorem linksOf_congr (m : Registration) {inputs : List RegisteredInput}
    (h : ∀ input ∈ inputs, s'.literal input.name = s.literal input.name) :
    r.linksOf s' m inputs = r.linksOf s m inputs := by
  induction inputs with
  | nil => rfl
  | cons input rest ih =>
      obtain ⟨hinput, hrest⟩ := List.forall_mem_cons.mp h
      simp only [linksOf, link?_congr m hinput, ih hrest]

theorem links_congr {ms : List Registration}
    (h : ∀ m ∈ ms, ∀ input ∈ m.inputs, s'.literal input.name = s.literal input.name) :
    r.links s' ms = r.links s ms := by
  induction ms with
  | nil => rfl
  | cons m rest ih =>
      obtain ⟨hm, hrest⟩ := List.forall_mem_cons.mp h
      simp only [links, linksOf_congr m hm, ih hrest]

/-- The manifest depends on a store only in how it writes the names that inputs carry. -/
theorem manifestText_congr (h : ∀ v ∈ r.inputNames, s'.literal v = s.literal v) :
    r.manifestText s' = r.manifestText s := by
  have hlinks : r.links s' r = r.links s r := links_congr fun m hm input hinput =>
    h _ (List.mem_flatMap.mpr ⟨m, hm, List.mem_map_of_mem hinput⟩)
  simp only [manifestText, manifest, order, hlinks]

end Registry

theorem Store.plain_str (s : Store) (t : Points) : s.plain (.str t) = .ok t := rfl

theorem args_cases {f : RuntimeFault} (h : ∀ key, f ≠ .missingKey key) :
    f.args = [] ∨ (∃ t, f.args = [.str t]) ∨ ∃ n t, f.args = [.int n, .str t] := by
  unfold RuntimeFault.args
  split
  · exact absurd rfl (h _)
  · exact .inr (.inr ⟨_, _, rfl⟩)
  · exact .inl rfl
  · exact .inr (.inl ⟨_, rfl⟩)

/-- A fault without a value of the store is described alike in every store. -/
theorem failureOf_toError {f : RuntimeFault} (h : ∀ key, f ≠ .missingKey key) (s s' : Store) :
    s'.failureOf f.toError = s.failureOf f.toError := by
  have hdescribe : s'.describe f.toError = s.describe f.toError := by
    obtain hargs | ⟨t, hargs⟩ | ⟨n, t, hargs⟩ := args_cases h
    · simp only [Store.describe, Store.errorText, RuntimeFault.toError, hargs]
    · simp only [Store.describe, Store.errorText, RuntimeFault.toError, hargs, Store.plain_str,
        Registry.literal_str]
    · simp [Store.describe, Store.errorText, RuntimeFault.toError, hargs, Store.literal,
        nestingLimit, Store.literalWithin, Store.eachText]
  simp only [Store.failureOf, hdescribe]

theorem Machine.failureOf_fault {f : RuntimeFault} (h : ∀ key, f ≠ .missingKey key)
    (m m' : Machine) : m'.failureOf (.fault f) = m.failureOf (.fault f) := by
  simp only [failureOf, failureOf_toError h m.store m'.store]

theorem RuntimeFault.escapes_kind (f : RuntimeFault) : f.kind.escapes = false := by
  cases f <;> rfl

/-- No fault escapes: the errors that do are raised by scripts that name them. -/
theorem Machine.failureOf_fault_ne_escaped (m : Machine) (f : RuntimeFault) (kind : ErrorKind) :
    m.failureOf (.fault f) ≠ .escaped kind := by
  have hkind : f.toError.kind.escapes = false := f.escapes_kind
  simp only [failureOf, Store.failureOf, hkind, Bool.false_eq_true, if_false]
  split
  · simp
  · split <;> simp

end Script

namespace ExecutionWorker

open Script (Value Machine Registry bound? predefinedNames compileSource compileSource_str)

variable (fuel : Nat) (cache : BlockCache Value) {w w' : ExecutionWorker}

/-- What comes of the manifest in a build. -/
def publish (w : ExecutionWorker) (manifest : Except Script.RuntimeFault String) : Answer :=
  match manifest with
  | .ok text => .say w ("Build result: " ++ text)
  | .error f => sayFailure w "Build error: " (w.machine.failureOf (.fault f))

theorem compileSource_build :
    compileSource buildSource = .ok ([] ++ [.expr (.call (.name "codegen") [])]) :=
  compileSource_str (Script.compile_of_tokens [.name "codegen", .op "(", .op ")", .newline]
    (by decide)
    rfl rfl rfl)

/-- A build evaluates its call where the predefined names are set anew. -/
theorem evalProgram_build (fuel : Nat) (m : Machine) :
    Script.evalProgram fuel ([] ++ [.expr (.call (.name "codegen") [])]) m =
      Script.eval fuel none (.call (.name "codegen") []) m.restored := by
  rw [Machine.evalProgram_append_expr]
  change Script.eval fuel none _ { m.restored with names := m.restored.namesAtHand } = _
  rw [Machine.namesAtHand_restored]
  rfl

/-- A build that has not the fuel for its call is given up. -/
theorem build_exhausted {fuel : Nat} (h : fuel < 2) (w : ExecutionWorker) :
    w.build fuel = .giveUp { w with machine := w.machine.restored } := by
  have hcall : Script.eval fuel none (.call (.name "codegen") []) w.machine.restored =
      (.exhausted, w.machine.restored) := by
    match fuel, h with
    | 0, _ | 1, _ => rfl
  simp only [build, Machine.evalSource, compileSource_build, Machine.evalUnit_eq_settle,
    evalProgram_build, hcall, Machine.settle, sayFailure]

/-- A build where its function is predefined and the name not bound says what comes of the manifest
of the registered modules, if it has fuel to call it. -/
theorem build_of_offered (h : bound? w.machine.scope "codegen" = none)
    (hoffered : w.machine.store.Offers .manifest) :
    w.build (fuel + 2) = publish { w with machine := w.machine.restored }
      (w.machine.registry.manifestText w.machine.store) := by
  have hunbound : bound? w.machine.restored.scope "codegen" = none :=
    (w.machine.bound?_restored (by decide)).trans h
  have hname : Script.Run.nameValue none "codegen" w.machine.restored =
      (.value (.builtin .manifest), w.machine.restored) :=
    Machine.nameValue_of_offered (b := .manifest) hunbound rfl hoffered
  have hcall : Script.eval (fuel + 2) none (.call (.name "codegen") []) w.machine.restored =
      Script.Builtin.call .manifest [] w.machine.restored := by
    rw [Script.eval, Script.bind_apply, Script.eval, hname]
    rfl
  simp only [build, Machine.evalSource, compileSource_build, Machine.evalUnit_eq_settle,
    evalProgram_build, hcall, Script.call_manifest]
  change _ = publish _ (w.machine.restored.registry.manifestText w.machine.restored.store)
  cases w.machine.restored.registry.manifestText w.machine.restored.store with
  | ok text =>
      simp only [Machine.settle, Script.Store.plain_str, sayText, publish]
  | error f => rfl

/-- A build that has a manifest to write says it. -/
theorem messages_build (h : bound? w.machine.scope "codegen" = none)
    (hoffered : w.machine.store.Offers .manifest) {text : String}
    (htext : w.machine.registry.manifestText w.machine.store = .ok text) :
    (step (fuel + 2) cache w .build).messages = [.text (.str ("Build result: " ++ text))] := by
  rw [messages_step, handle, build_of_offered fuel h hoffered, htext]
  rfl

theorem messages_publish {manifest : Except Script.RuntimeFault String}
    (h : Script.Textual manifest) (w w' : ExecutionWorker) :
    (publish w' manifest).messages = (publish w manifest).messages ∧
      (publish w' manifest).ending = (publish w manifest).ending := by
  cases manifest with
  | ok text => exact ⟨rfl, rfl⟩
  | error f =>
      have hplain : ∀ key, f ≠ .missingKey key := fun key hkey => h key (congrArg _ hkey)
      have hfault := Machine.failureOf_fault hplain w.machine w'.machine
      simp only [publish, hfault]
      cases w.machine.failureOf (.fault f) <;> exact ⟨rfl, rfl⟩

/-- Where its function is predefined and the name not bound, a build does not break the worker
off. -/
theorem not_breaks_build (h : bound? w.machine.scope "codegen" = none)
    (hoffered : w.machine.store.Offers .manifest) : ¬w.Breaks (fuel + 2) cache .build := by
  rw [← ending_step_eq_broken, step, Handled.ending_reported_eq_broken, Message.isTooDeep_build,
    handle, build_of_offered fuel h hoffered]
  cases w.machine.registry.manifestText w.machine.store <;>
    simp [publish, Handled.say, Machine.failureOf_fault_ne_escaped]

/-- Where its function is predefined and the name not bound, a build says the same of the same
registry, whatever else scripts have made, if they have not changed how the names are written that
inputs carry. -/
theorem messages_build_congr (h : bound? w.machine.scope "codegen" = none)
    (hoffered : w.machine.store.Offers .manifest)
    (h' : bound? w'.machine.scope "codegen" = none)
    (hoffered' : w'.machine.store.Offers .manifest)
    (hregistry : w'.machine.registry = w.machine.registry)
    (hnames : ∀ v ∈ w.machine.registry.inputNames,
      w'.machine.store.literal v = w.machine.store.literal v) :
    (step fuel cache w' .build).messages = (step fuel cache w .build).messages := by
  rw [messages_step, messages_step, handle, handle]
  simp only [Message.isTooDeep_build]
  obtain hfuel | hfuel := Nat.lt_or_ge fuel 2
  · rw [build_exhausted hfuel, build_exhausted hfuel]
    rfl
  · obtain ⟨fuel, rfl⟩ := Nat.exists_eq_add_of_le' hfuel
    rw [build_of_offered fuel h hoffered, build_of_offered fuel h' hoffered', hregistry,
      Registry.manifestText_congr hnames]
    have htextual := Registry.textual_manifestText w.machine.registry w.machine.store
    obtain ⟨hmessages, hending⟩ := messages_publish htextual _ _
    rw [hmessages, hending]

end ExecutionWorker

end BlockWorkbench
