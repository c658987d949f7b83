import Mathlib
import BlockWorkbench.Proofs.Script.Running
import BlockWorkbench.Script.Engine

/-!
What a running script does to the names at top level. Names that are bound stay bound. Those of the
predefined names are bound anew for every run, which users do not see; a call does not look at where
top level finds them, since a function keeps where it found them when it was made.
-/

namespace BlockWorkbench.Script

variable {α : Type}

theorem bound?_bind (bindings : List (String × Value)) (name other : String) (v : Value) :
    bound? (bind bindings name v) other = if other = name then some v else bound? bindings other := by
  induction bindings with
  | nil =>
      obtain rfl | h := eq_or_ne other name
      · simp [bind, bound?]
      · simp [bind, bound?, h, Ne.symm h]
  | cons entry rest ih =>
      obtain ⟨n, w⟩ := entry
      simp only [bind]
      split
      · rename_i hn
        obtain rfl | h := eq_or_ne other name
        · simp [bound?, hn]
        · simp [bound?, hn, h, Ne.symm h]
      · rename_i hn
        obtain rfl | h := eq_or_ne n other
        · simp [bound?, hn]
        · simpa [bound?, h] using ih

theorem filter_bind {p : String × Value → Bool} (bindings : List (String × Value)) {name : String}
    (h : ∀ v, p (name, v) = false) (v : Value) :
    (bind bindings name v).filter p = bindings.filter p := by
  induction bindings with
  | nil => simp [bind, h]
  | cons entry rest ih =>
      obtain ⟨n, w⟩ := entry
      simp only [bind]
      split
      · rename_i hn
        simp [hn, h]
      · simp [List.filter_cons, ih]

namespace Machine

variable (m : Machine)

/-- The machine with the dictionary of the predefined names bound anew. -/
def restored : Machine :=
  { m with scope := bind m.scope predefinedNames .predefinedDict, names := .predefinedDict }

theorem restoreNames_apply : Run.restoreNames m = (.value (), m.restored) := rfl

@[simp]
theorem namesAtHand_restored : m.restored.namesAtHand = .predefinedDict := by
  simp [namesAtHand, restored, bound?_bind]

theorem bound?_restored {name : String} (h : name ≠ predefinedNames) :
    bound? m.restored.scope name = bound? m.scope name := by
  simp [restored, bound?_bind, h]

/-- Users do not see that the predefined names were bound anew. -/
@[simp]
theorem bindings_restored : m.restored.bindings = m.bindings :=
  filter_bind m.scope (fun _ => by cbv) _

@[simp]
theorem store_restored : m.restored.store = m.store := rfl

@[simp]
theorem registry_restored : m.restored.registry = m.registry := rfl

@[simp]
theorem names_restored : m.restored.names = .predefinedDict := rfl

end Machine

/-- The machine with a new function bound to a name at top level. -/
def Machine.define (m : Machine) (name : String) (f : FunctionObject) : Machine :=
  { m with
    store := (m.store.addFunction f).2
    scope := bind m.scope name (.function m.store.functions.size) }

@[simp]
theorem Machine.scope_define (m : Machine) (name : String) (f : FunctionObject) :
    (m.define name f).scope = bind m.scope name (.function m.store.functions.size) := rfl

/-- What the definition of a function without defaults does. -/
theorem exec_define (fuel : Nat) (name : String) {params : List Param} (body : List Stmt)
    (h : ∀ p ∈ params, p.default? = none) (m : Machine) :
    exec (fuel + 1) none (.define name params body) m =
      (.value .next, m.define name ⟨name, params.map (·.name), [], body,
        params.map (·.name) ++ boundNames body, none, m.namesAtHand⟩) := by
  have hdefaults : params.filterMap (·.default?) = [] := List.filterMap_eq_nil_iff.mpr h
  rw [exec, hdefaults]
  rfl

theorem callManifest_nil (callee : String) (m : Machine) :
    callManifest callee [] m = match m.registry.manifestText m.store with
      | .ok text => (.value (.str (.ofString text)), m)
      | .error f => (.raised (.fault f), m) := rfl

/-- Names that are bound at top level are still bound behind `x`. -/
def Run.KeepsNames (x : Run α) : Prop :=
  ∀ m name, (bound? m.scope name).isSome → (bound? (x m).2.scope name).isSome

theorem Run.KeepsNames.bind {β : Type} {x : Run α} {f : α → Run β} (hx : x.KeepsNames)
    (hf : ∀ a, (f a).KeepsNames) : (x >>= f).KeepsNames := by
  intro m name h
  have hfirst := hx m name h
  change (bound? (x.andThen f m).2.scope name).isSome
  unfold Run.andThen
  cases hxm : x m with | mk out m' =>
  rw [hxm] at hfirst
  cases out with
  | value a => exact hf a m' name hfirst
  | raised r => exact hfirst
  | exhausted => exact hfirst

theorem respected_keepsNames : Respected (fun _ => True) (fun _ => True)
    fun x _ => x.KeepsNames where
  ofBinds := id
  inCall _ := trivial
  value _ := fun _ _ h => h
  raised _ := fun _ _ h => h
  exhausted _ := fun _ _ h => h
  bind := Run.KeepsNames.bind
  nested := by
    intro α x _ hx m name h
    unfold Run.nested
    split
    · exact h
    · exact hx { m with depth := m.depth + 1 } name h
  ask question := by
    intro m name h
    unfold Run.ask
    split <;> exact h
  act step := by
    intro m name h
    unfold Run.act
    split <;> exact h
  nameValue _ name := by
    intro m other h
    unfold Run.nameValue
    split <;> exact h
  bindName {place} _ name v := by
    intro m other h
    cases place with
    | none =>
        simp only [Run.bindName, bound?_bind]
        split
        · rfl
        · exact h
    | some a => exact h
  makeFunction _ _ _ _ _ := fun _ _ h => h
  register kind spec := by
    intro m name h
    unfold registerModule
    split <;> exact h
  manifest callee := by
    intro m name h
    rw [callManifest_nil]
    cases m.registry.manifestText m.store <;> exact h

/-- What `x` does does not depend on where top level finds the predefined names. -/
def Run.Unaware (x : Run α) : Prop :=
  ∀ m names, x { m with names := names } = ((x m).1, { (x m).2 with names := names })

theorem Run.Unaware.bind {β : Type} {x : Run α} {f : α → Run β} (hx : x.Unaware)
    (hf : ∀ a, (f a).Unaware) : (x >>= f).Unaware := by
  intro m names
  change x.andThen f _ = ((x.andThen f m).1, { (x.andThen f m).2 with names := names })
  unfold Run.andThen
  rw [hx m names]
  cases x m with | mk out m' =>
  cases out with
  | value a => exact hf a m' names
  | raised r => rfl
  | exhausted => rfl

theorem respected_unaware : Respected (·.isSome) (·.isSome) fun x _ => x.Unaware where
  ofBinds := id
  inCall _ := rfl
  value _ := fun _ _ => rfl
  raised _ := fun _ _ => rfl
  exhausted _ := fun _ _ => rfl
  bind := Run.Unaware.bind
  nested := by
    intro α x _ hx m names
    simp only [Run.nested]
    split
    · rfl
    · have h := hx { m with depth := m.depth + 1 } names
      simp only at h
      rw [h]
  ask question := by
    intro m names
    simp only [Run.ask]
    split <;> rfl
  act step := by
    intro m names
    simp only [Run.act]
    split <;> rfl
  nameValue {place} hplace name := by
    intro m names
    obtain ⟨a, rfl⟩ := Option.isSome_iff_exists.mp hplace
    have hvalue : ({ m with names := names } : Machine).valueOf (some a) name =
        m.valueOf (some a) name := rfl
    simp only [Run.nameValue, hvalue]
    split <;> rfl
  bindName {place} hplace name v := by
    intro m names
    obtain ⟨a, rfl⟩ := Option.isSome_iff_exists.mp hplace
    rfl
  makeFunction _ _ _ _ _ := fun _ _ => rfl
  register kind spec := by
    intro m names
    simp only [registerModule]
    split <;> rfl
  manifest callee := by
    intro m names
    rw [callManifest_nil, callManifest_nil]
    cases m.registry.manifestText m.store <;> rfl

variable (fuel : Nat)

theorem keepsNames_runAll (program : Program) : (runAll fuel program).KeepsNames :=
  respected_keepsNames.runAll trivial le_rfl program

theorem unaware_call (f : Value) (args : List Value) : (call fuel f args).Unaware :=
  (respected_unaware.related le_rfl).call f args

end BlockWorkbench.Script
