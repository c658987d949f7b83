import BlockWorkbench.Proofs.Script.Fuel
import BlockWorkbench.Proofs.Script.Names
import BlockWorkbench.Proofs.Script.RegistrationCall
import BlockWorkbench.Proofs.Script.Sealed

/-!
What scripts of registrations and definitions do when they run. As long as none of the names that
belong to the engine is bound, and they are predefined as the engine predefines them, each
registration puts its module into the registry, and a definition touches nothing of it.
-/

namespace BlockWorkbench.Script

/-- The entries of the dictionary of an input. -/
def inputEntries : InputSource → List (Value × Value)
  | .block => [(.str (written "kind"), .str (written "source"))]
  | .module kind name => [(.str (written "kind"), .str (written kind)),
      (.str (written "name"), .str (written name))]

/-- An input as it is registered. -/
def registeredInput (source : InputSource) : RegisteredInput :=
  match source with
  | .block => ⟨.source, .none, inputEntries source⟩
  | .module kind name =>
    ⟨.module (if kind = "map" then .map else .store), .str (written name), inputEntries source⟩

def registeredKind : ModuleKind → RegisteredKind
  | .map => .map
  | .store _ => .store

/-- A module as it is registered. -/
def registered (m : Module) (sources : List InputSource) : Registration :=
  ⟨registeredKind m.kind, written m.name, written m.name, sources.map registeredInput⟩

theorem eval_inputExpr (fuel : Nat) (place : Place) (source : InputSource) :
    eval (fuel + 2) place (inputExpr source) = Run.make (·.addDict (inputEntries source)) := by
  cases source <;> rfl

theorem each_eval_inputs (fuel : Nat) (place : Place) (sources : List InputSource) (m : Machine) :
    Run.each (eval (fuel + 2) place) (sources.map inputExpr) m =
      (.value ((List.range' m.store.dicts.size sources.length).map .dict),
        { m with store := { m.store with
          dicts := m.store.dicts ++ (sources.map inputEntries).toArray } }) := by
  induction sources generalizing m with
  | nil => simp [Run.each, Run.value]
  | cons source rest ih =>
      rw [List.map_cons, Run.each, eval_inputExpr]
      simp only [bind_apply, Run.make, Store.addDict, ih]
      simp [List.range'_succ]
      rfl

/-- What a store holds of inputs whose dictionaries stand from `base` on. -/
theorem readInputs_inputs {s : Store} {base : Nat} {sources : List InputSource} (module : Points)
    (hentries : ∀ i (h : i < sources.length), s.entries (base + i) = inputEntries sources[i])
    (hsources : ∀ source ∈ sources, Named source) :
    readInputs s module ((List.range' base sources.length).map .dict) =
      .ok (sources.map registeredInput) := by
  induction sources generalizing base with
  | nil => rfl
  | cons source rest ih =>
      have hfirst : readInput s module (.dict base) = .ok (registeredInput source) := by
        have hbase : s.entries base = inputEntries source := hentries 0 (by simp)
        have hsource := hsources source List.mem_cons_self
        cases source with
        | block =>
            rw [readInput, hbase]
            rfl
        | module kind name =>
            obtain ⟨hkind, hname⟩ := hsource
            have hwritten : written name ≠ [] := mt written_eq_nil_iff.mp hname
            have hnamed : namedEntry (inputEntries (.module kind name)) "name" =
                .str (written name) := rfl
            have htruthy : s.isTruthy (.str (written name)) = true := by
              simp [Store.isTruthy, hwritten]
            obtain rfl | rfl := hkind
            all_goals
              simp only [readInput, hbase, hnamed, htruthy]
              rfl
      have hmore : ∀ i (h : i < rest.length), s.entries (base + 1 + i) = inputEntries rest[i] := by
        intro i hi
        rw [Nat.add_assoc, Nat.add_comm 1]
        exact hentries (i + 1) (Nat.succ_lt_succ hi)
      have hrest := ih hmore fun source h => hsources source (List.mem_cons_of_mem _ h)
      simp [List.range'_succ, readInputs, hfirst, hrest]

/-- The dictionary of a registration, whose inputs stand in the list at `inputs`. -/
def registrationEntries (m : Module) (inputs : Address) : List (Value × Value) :=
  [(.str (written "name"), .str (written m.name)), (.str (written "inputs"), .list inputs),
    (.str (written "handler"), .str (written m.name))]

/-- The store behind the dictionary of a registration. -/
def registrationStore (s : Store) (m : Module) (sources : List InputSource) : Store :=
  { s with
    dicts := (s.dicts ++ (sources.map inputEntries).toArray).push
      (registrationEntries m s.lists.size)
    lists := s.lists.push ((List.range' s.dicts.size sources.length).map .dict).toArray }

theorem readRegistration_registration (s : Store) {m : Module} {sources : List InputSource}
    (hname : m.name ≠ "") (hsources : ∀ source ∈ sources, Named source) :
    readRegistration (registrationStore s m sources) (registeredKind m.kind)
      (.dict (s.dicts.size + sources.length)) = .ok (registered m sources) := by
  have hwritten : written m.name ≠ [] := mt written_eq_nil_iff.mp hname
  have hentries : (registrationStore s m sources).entries (s.dicts.size + sources.length) =
      registrationEntries m s.lists.size := by
    simp [registrationStore, Store.entries]
  have hitems : ((registrationStore s m sources).items s.lists.size).toList =
      (List.range' s.dicts.size sources.length).map .dict := by
    simp [registrationStore, Store.items]
  have hinputs : ∀ i (h : i < sources.length),
      (registrationStore s m sources).entries (s.dicts.size + i) = inputEntries sources[i] := by
    intro i hi
    simp only [registrationStore, Store.entries, Array.getD_eq_getD_getElem?, Array.getElem?_push,
      Array.size_append]
    simp [hi, hi.ne]
  have hread := readInputs_inputs (written m.name) hinputs hsources
  have hnamed : namedEntry (registrationEntries m s.lists.size) "name" = .str (written m.name) :=
    rfl
  have hhandler : namedEntry (registrationEntries m s.lists.size) "handler" =
      .str (written m.name) := rfl
  have hlist : valueAt? (registrationEntries m s.lists.size) (.str (.ofString "inputs")) =
      some (.list s.lists.size) := rfl
  simp [readRegistration, hentries, hnamed, hhandler, hlist, hwritten, Store.elements, hitems,
    hread, registered]

theorem entries_registrationStore {s : Store} {m : Module} {sources : List InputSource} {a : Address}
    (h : a < s.dicts.size) : (registrationStore s m sources).entries a = s.entries a := by
  simp only [registrationStore, Store.entries, Array.getD_eq_getD_getElem?, Array.getElem?_push,
    Array.size_append]
  rw [if_neg (Nat.ne_of_lt (Nat.lt_add_right _ h)), Array.getElem?_append_left h]

/-- The names by which scripts reach the registry, and that of the predefined names. -/
def engineNames : List String := ["add_mfn", "add_sfn", "codegen", predefinedNames]

/-- Whether a function of the engine is predefined under its name. Scripts that change the dictionary
of the predefined names may put something else in its place. -/
def Store.Offers (s : Store) (b : Builtin) : Prop :=
  valueAt? (s.entries 0) (.str (.ofString b.name)) = some (.builtin b)

namespace Store

variable {s : Store} {b : Builtin}

theorem offers_default (hb : b.isEngine) : ({} : Store).Offers b := by
  cases b <;> first | exact absurd hb (by decide) | rfl

theorem Offers.size_pos (h : s.Offers b) : 0 < s.dicts.size := by
  by_contra hsize
  have hnone : s.entries 0 = [] := by
    simp [entries, Array.getD_eq_getD_getElem?, Array.getElem?_eq_none (Nat.le_of_not_lt hsize)]
  rw [Offers, hnone] at h
  cases h

theorem Offers.registrationStore (h : s.Offers b) (m : Module) (sources : List InputSource) :
    (registrationStore s m sources).Offers b := by
  rw [Offers, entries_registrationStore h.size_pos]
  exact h

theorem Intact.offers (h : s.Intact) (hb : b.isEngine) : s.Offers b := by
  rw [Offers, h]
  exact offers_default hb

theorem Intact.registrationStore (h : s.Intact) (m : Module) (sources : List InputSource) :
    (registrationStore s m sources).Intact := by
  rw [Intact, entries_registrationStore h.size_pos]
  exact h

/-- What a name is predefined with, or that it is not predefined. -/
theorem Intact.predefinedValue (h : s.Intact) (name : String) :
    s.predefinedValue .predefinedDict name = ({} : Store).predefinedValue .predefinedDict name := by
  rw [Intact] at h
  simp only [Store.predefinedValue, Value.predefinedDict, item, Value.asKey, Value.unhashable?,
    ok_bind, h]

theorem Offers.predefinedValue (h : s.Offers b) :
    s.predefinedValue .predefinedDict b.name = .ok (.builtin b) := by
  have hitem : s.item .predefinedDict (.str (.ofString b.name)) = .ok (.builtin b) := by
    rw [Offers] at h
    simp only [item, Value.predefinedDict, Value.asKey, Value.unhashable?, ok_bind, h]
    rfl
  rw [Store.predefinedValue, hitem]

end Store

/-- The function that registers a module. -/
def Builtin.registering : ModuleKind → Builtin
  | .map => .addMap
  | .store _ => .addStore

theorem name_registering (kind : ModuleKind) :
    (Builtin.registering kind).name = kind.registerFunction := by
  cases kind <;> rfl

theorem call_registering (kind : ModuleKind) (spec : Value) :
    (Builtin.registering kind).call [spec] = registerModule (registeredKind kind) spec := by
  cases kind <;> rfl

namespace Machine

/-- None of the names that belong to the engine is bound, and each is predefined as the engine does
it. The dictionary of the predefined names is bound anew by each run. -/
structure Untouched (m : Machine) : Prop where
  unbound : ∀ name ∈ engineNames, name ≠ predefinedNames → bound? m.scope name = none
  offered : ∀ b : Builtin, b.isEngine → m.store.Offers b

theorem nameValue_of_bound {m : Machine} {name : String} {v : Value}
    (h : bound? m.scope name = some v) : Run.nameValue none name m = (.value v, m) := by
  simp [Run.nameValue, valueOf, globalValue, h]

/-- A name that is not bound has the value it is predefined with. -/
theorem nameValue_of_unbound {m : Machine} {name : String} (hname : bound? m.scope name = none) :
    Run.nameValue none name m = match m.store.predefinedValue m.names name with
      | .ok v => (.value v, m)
      | .error f => (.raised (.fault f), m) := by
  cases hvalue : m.store.predefinedValue m.names name <;>
    simp [Run.nameValue, valueOf, globalValue, hname, hvalue]

theorem nameValue_of_offered {m : Machine} {b : Builtin} (hname : bound? m.scope b.name = none)
    (hnames : m.names = .predefinedDict) (h : m.store.Offers b) :
    Run.nameValue none b.name m = (.value (.builtin b), m) := by
  rw [nameValue_of_unbound hname, hnames, h.predefinedValue]

end Machine

theorem eval_registrationEntries (fuel : Nat) (place : Place) (mod : Module)
    (sources : List InputSource) (m : Machine) :
    eval (fuel + 4) place (.dict [(.str (written "name"), .str (written mod.name)),
      (.str (written "inputs"), .list (sources.map inputExpr)),
      (.str (written "handler"), .str (written mod.name))]) m =
      (.value (.dict (m.store.dicts.size + sources.length)),
        { m with store := registrationStore m.store mod sources }) := by
  have hlist : eval (fuel + 3) place (.list (sources.map inputExpr)) m =
      (.value (.list m.store.lists.size), { m with store := { m.store with
        dicts := m.store.dicts ++ (sources.map inputEntries).toArray
        lists := m.store.lists.push
          ((List.range' m.store.dicts.size sources.length).map .dict).toArray } }) := by
    rw [eval, bind_apply, each_eval_inputs]
    rfl
  have hpair : ∀ (t : Points) (e : Expr) (m : Machine) (v : Value) (m' : Machine),
      eval (fuel + 3) place e m = (.value v, m') →
      (do return (← eval (fuel + 3) place (.str t), ← eval (fuel + 3) place e) : Run _) m =
        (.value (.str t, v), m') := by
    intro t e m v m' he
    change (eval (fuel + 3) place e >>= fun w => pure (Value.str t, w)) m = _
    rw [bind_apply, he]
    rfl
  have hdict : ∀ inputs, dictOf [] (registrationEntries mod inputs) =
      .ok (registrationEntries mod inputs) := fun _ => rfl
  rw [eval, bind_apply]
  simp only [Run.each]
  rw [bind_apply, hpair _ _ _ _ _ rfl]
  simp only
  rw [bind_apply, bind_apply, hpair _ _ _ _ _ hlist]
  simp only
  rw [bind_apply, bind_apply, hpair _ _ _ _ _ rfl]
  change Run.act (fun s => do
    return s.addDict (← dictOf [] (registrationEntries mod m.store.lists.size))) _ = _
  simp [hdict, Run.act, Store.addDict, registrationStore]

/-- A registration puts its module into the registry, if its function is not bound but predefined. -/
theorem eval_registrationCall (fuel : Nat) {mod : Module} {sources : List InputSource}
    (hname : mod.name ≠ "") (hsources : ∀ source ∈ sources, Named source) {m : Machine}
    (hm : bound? m.scope mod.kind.registerFunction = none) (hnames : m.names = .predefinedDict)
    (hoffered : m.store.Offers (.registering mod.kind)) :
    eval (fuel + 6) none (registrationCall mod sources) m = (.value .none, { m with
      store := registrationStore m.store mod sources
      registry := m.registry.put (registered mod sources) }) := by
  rw [← name_registering] at hm
  have hf : eval (fuel + 5) none (.name mod.kind.registerFunction) m =
      (.value (.builtin (.registering mod.kind)), m) := by
    rw [eval, ← name_registering, Machine.nameValue_of_offered hm hnames hoffered]
  have hread := readRegistration_registration m.store hname hsources
  rw [registrationCall, eval, bind_apply, hf]
  simp only [Run.each, bind_apply, eval_registrationEntries]
  change Builtin.call _ [.dict (m.store.dicts.size + sources.length)] _ = _
  rw [call_registering, registerModule, Registry.register, hread]
  rfl

namespace Stmt

/-- Whether a statement defines a function of a name that is not the engine's, without defaults. -/
def IsPlain : Stmt → Prop
  | define name params _ => name ∉ engineNames ∧ ∀ p ∈ params, p.default? = none
  | _ => False

end Stmt

namespace Machine

theorem Untouched.start : Untouched {} :=
  ⟨fun _ _ _ => rfl, fun _ => Store.offers_default⟩

/-- The engine is as it predefines itself, and scripts find the predefined names where it puts
them. -/
structure Ready (m : Machine) : Prop where
  untouched : m.Untouched
  names : m.names = .predefinedDict
  atHand : m.namesAtHand = .predefinedDict

variable {m : Machine}

theorem Ready.registerFunction (h : m.Ready) (kind : ModuleKind) :
    bound? m.scope kind.registerFunction = none :=
  h.untouched.unbound _ (by cases kind <;> simp [ModuleKind.registerFunction, engineNames])
    (by cases kind <;> simp [ModuleKind.registerFunction, predefinedNames])

theorem Ready.registering (h : m.Ready) (kind : ModuleKind) :
    m.store.Offers (.registering kind) :=
  h.untouched.offered _ (by cases kind <;> rfl)

/-- A registration leaves the engine as it is. -/
theorem Ready.registration (h : m.Ready) (mod : Module) (sources : List InputSource)
    (registry : Registry) : Ready { m with
      store := registrationStore m.store mod sources
      registry := registry } :=
  ⟨⟨h.untouched.unbound, fun b hb => (h.untouched.offered b hb).registrationStore mod sources⟩,
    h.names, h.atHand⟩

theorem Untouched.restored (h : m.Untouched) : m.restored.Ready where
  untouched := ⟨fun name hname hne => (m.bound?_restored hne).trans (h.unbound name hname hne),
    h.offered⟩
  names := rfl
  atHand := m.namesAtHand_restored

theorem Ready.adopted (h : m.Ready) : { m with names := m.namesAtHand } = m := by
  rw [h.atHand, ← h.names]

end Machine

theorem exec_plain (fuel : Nat) {stmt : Stmt} (hstmt : stmt.IsPlain) {m : Machine} (hm : m.Ready) :
    ∃ m', exec (fuel + 1) none stmt m = (.value .next, m') ∧ m'.Ready ∧
      m'.registry = m.registry := by
  cases stmt with
  | define name params body =>
      obtain ⟨hname, hparams⟩ := hstmt
      have hkept {other : String} (hother : other ∈ engineNames) (f : FunctionObject) :
          bound? (m.define name f).scope other = bound? m.scope other := by
        rw [Machine.scope_define, bound?_bind, if_neg (by rintro rfl; exact hname hother)]
      refine ⟨_, exec_define fuel name body hparams m, ⟨⟨fun other hother hne => ?_,
        hm.untouched.offered⟩, hm.names, ?_⟩, rfl⟩
      · rw [hkept hother]
        exact hm.untouched.unbound other hother hne
      · rw [Machine.namesAtHand, hkept (by simp [engineNames])]
        exact hm.atHand
  | _ => exact absurd hstmt id

/-- Programs of registrations and plain definitions, with what they register, in order. -/
inductive Registers : Program → List Registration → Prop
  | nil : Registers [] []
  | call {m : Module} {sources : List InputSource} {program : Program} {rs : List Registration} :
      m.name ≠ "" → (∀ source ∈ sources, Named source) → Registers program rs →
      Registers (.expr (registrationCall m sources) :: program) (registered m sources :: rs)
  | define {stmt : Stmt} {program : Program} {rs : List Registration} :
      stmt.IsPlain → Registers program rs → Registers (stmt :: program) rs

namespace Registers

variable {program more : Program} {rs rs' : List Registration}

theorem append (h : Registers program rs) (h' : Registers more rs') :
    Registers (program ++ more) (rs ++ rs') := by
  induction h with
  | nil => exact h'
  | call hname hsources _ ih => exact .call hname hsources ih
  | define hstmt _ ih => exact .define hstmt ih

theorem of_plain (h : ∀ stmt ∈ program, stmt.IsPlain) : Registers program [] := by
  induction program with
  | nil => exact .nil
  | cons stmt rest ih =>
      exact .define (h stmt List.mem_cons_self) (ih fun s hs => h s (List.mem_cons_of_mem stmt hs))

theorem replicate (h : Registers program rs) (k : Nat) :
    Registers (List.replicate k program).flatten (List.replicate k rs).flatten := by
  induction k with
  | zero => exact .nil
  | succ k ih => exact h.append ih

theorem sequence (fuel : Nat) (h : Registers program rs) {m : Machine} (hm : m.Ready) :
    ∃ m', Flow.sequence (exec (fuel + 7) none) program m = (.value .next, m') ∧ m'.Ready ∧
      m'.registry = rs.foldl Registry.put m.registry := by
  induction h generalizing m with
  | nil => exact ⟨m, rfl, hm, rfl⟩
  | @call mod sources _ _ hname hsources _ ih =>
      have hcall := eval_registrationCall fuel hname hsources (hm.registerFunction mod.kind)
        hm.names (hm.registering mod.kind)
      obtain ⟨m', hrest, hready, hregistry⟩ := ih (hm.registration mod sources _)
      refine ⟨m', ?_, hready, hregistry⟩
      rw [Flow.sequence, bind_apply, exec, bind_apply, hcall]
      exact hrest
  | define hstmt _ ih =>
      obtain ⟨m₁, hexec, hready₁, hregistry₁⟩ := exec_plain (fuel + 6) hstmt hm
      obtain ⟨m', hrest, hready, hregistry⟩ := ih hready₁
      refine ⟨m', ?_, hready, by rw [hregistry, hregistry₁]⟩
      rw [Flow.sequence, bind_apply, hexec]
      exact hrest

theorem runAll (fuel : Nat) (h : Registers program rs) {m : Machine} (hm : m.Ready) :
    ∃ m', Script.runAll (fuel + 7) program m = (.value (), m') ∧ m'.Ready ∧
      m'.registry = rs.foldl Registry.put m.registry := by
  obtain ⟨m', hsequence, hm'⟩ := h.sequence fuel hm
  refine ⟨m', ?_, hm'⟩
  rw [Script.runAll, bind_apply, hsequence]
  rfl

theorem splitResult_cons (stmt : Stmt) (h : program ≠ []) :
    splitResult (stmt :: program) =
      (stmt :: (splitResult program).1, (splitResult program).2) := by
  obtain ⟨next, rest, rfl⟩ := List.exists_cons_of_ne_nil h
  simp only [splitResult, List.getLast?_cons_cons, List.dropLast_cons_cons]
  split <;> rfl

/-- Where such a program gives a value, that is what its last registration gives. -/
theorem splitResult (h : Registers program rs) :
    (Script.splitResult program).2 = none ∧ Registers (Script.splitResult program).1 rs ∨
    ∃ m sources rs', m.name ≠ "" ∧ (∀ source ∈ sources, Named source) ∧
      (Script.splitResult program).2 = some (registrationCall m sources) ∧
      Registers (Script.splitResult program).1 rs' ∧ rs = rs' ++ [registered m sources] := by
  induction h with
  | nil => exact .inl ⟨rfl, .nil⟩
  | @call m sources program rs hname hsources hprogram ih =>
      obtain rfl | hne := eq_or_ne program []
      · cases hprogram
        exact .inr ⟨m, sources, [], hname, hsources, rfl, .nil, rfl⟩
      · rw [splitResult_cons _ hne]
        obtain ⟨hnone, hbody⟩ | ⟨m', sources', rs', hname', hsources', hsome, hbody, rfl⟩ := ih
        · exact .inl ⟨hnone, .call hname hsources hbody⟩
        · exact .inr ⟨m', sources', _, hname', hsources', hsome, .call hname hsources hbody, rfl⟩
  | @define stmt program rs hstmt hprogram ih =>
      obtain rfl | hne := eq_or_ne program []
      · refine .inl ?_
        cases stmt with
        | define name params body => exact ⟨rfl, .define hstmt hprogram⟩
        | _ => exact absurd hstmt id
      · rw [splitResult_cons _ hne]
        obtain ⟨hnone, hbody⟩ | ⟨m', sources', rs', hname', hsources', hsome, hbody, rfl⟩ := ih
        · exact .inl ⟨hnone, .define hstmt hbody⟩
        · exact .inr ⟨m', sources', _, hname', hsources', hsome, .define hstmt hbody, rfl⟩

/-- Run as a whole, such a program gives no value and puts what it registers into the registry. -/
theorem evalProgram (fuel : Nat) (h : Registers program rs) {m : Machine} (hm : m.Untouched) :
    ∃ m', Script.evalProgram (fuel + 7) program m = (.value .none, m') ∧ m'.Untouched ∧
      m'.registry = rs.foldl Registry.put m.registry := by
  obtain ⟨hnone, hbody⟩ | ⟨mod, sources, rs', hname, hsources, hsome, hbody, rfl⟩ := h.splitResult
  · obtain ⟨m', hrun, hready, hregistry⟩ := hbody.runAll fuel hm.restored
    refine ⟨m', ?_, hready.untouched, hregistry⟩
    simp only [Script.evalProgram, hnone, bind_apply, Machine.restoreNames_apply, hrun]
    rfl
  · obtain ⟨m', hrun, hready, hregistry⟩ := hbody.runAll fuel hm.restored
    have hcall := eval_registrationCall (fuel + 1) hname hsources
      (hready.registerFunction mod.kind) hready.names (hready.registering mod.kind)
    refine ⟨_, ?_, (hready.registration mod sources
      (m'.registry.put (registered mod sources))).untouched, ?_⟩
    · simp only [Script.evalProgram, hsome, bind_apply, Machine.restoreNames_apply, hrun,
        Run.adoptNames, hready.adopted]
      exact hcall
    · simp [hregistry]

end Registers

end BlockWorkbench.Script
