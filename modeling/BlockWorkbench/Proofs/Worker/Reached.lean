import BlockWorkbench.Proofs.Script.Confinement
import BlockWorkbench.Proofs.Worker.Calling
import BlockWorkbench.Proofs.Worker.Writing
import BlockWorkbench.StreamingWorker

/-!
What a worker comes to if no script that it is sent has a reserved name in it, also while records are
fetched into the cache that it reads. Whatever else the scripts do, and whether they fail or not, the
predefined names are those of the engine.
-/

namespace BlockWorkbench

/-- Whether the script that a request runs, if it compiles, has no reserved name in it. -/
def Message.Unreserved : Message Script.Value → Prop
  | .evaluate source => ∀ unit, Script.compileSource source = .ok unit →
      ∀ stmt ∈ unit, stmt.Unreserved
  | _ => True

namespace Script

/-- What an engine leaves of a unit is what the run of its program leaves. -/
theorem Machine.evalUnit_snd (m : Machine) (fuel : Nat) (unit : Program) :
    (m.evalUnit fuel unit).2 = (evalProgram fuel unit m).2 := by
  rw [evalUnit_eq_settle]
  cases evalProgram fuel unit m with | mk out m' =>
  cases out <;> rfl

/-- Whether a client gives what is sealed; data always is. -/
def Given.Sealed : Given → Prop
  | .value v => v.Sealed
  | .data _ => True

theorem confines_take {given : Given} (h : given.Sealed) : given.take.Confines Value.Sealed := by
  cases given with
  | value v => exact confines_value h
  | data v => exact confines_make fun _ hs => Store.sealed_ofJson hs v

theorem confines_callWith (fuel : Nat) {f : Value} (hf : f.Sealed) {args : List Given}
    (hargs : ∀ given ∈ args, given.Sealed) : (callWith fuel f args).Confines Value.Sealed :=
  (confines_each fun given hmem => confines_take (hargs given hmem)).bind fun vs hvs =>
    (confining fuel).call f vs hf hvs

namespace Machine.Confined

variable {m : Machine} (h : m.Confined) (fuel : Nat)

include h

theorem evalUnit {unit : Program} (hunit : ∀ stmt ∈ unit, stmt.Unreserved) :
    (m.evalUnit fuel unit).2.Confined := by
  rw [evalUnit_snd]
  exact (confines_evalProgram fuel hunit m h).2

/-- The dictionary of the predefined names cannot be called by its name, since it is no function. -/
theorem findFunction {name : Json} {f : Value} (hfind : m.findFunction name = .ok f) : f.Sealed := by
  cases name with
  | str name =>
      obtain ⟨hbound, hcallable⟩ := (findFunction_eq_ok m).mp hfind
      by_cases hname : name = predefinedNames
      · have hserves := h.atHand
        rw [namesAtHand, ← hname, hbound] at hserves
        obtain rfl | hsealed := hserves
        · cases hcallable
        · exact hsealed
      · exact h.scope name f hname hbound
  | null | bool _ | int _ | float _ | list _ | object _ => cases hfind

theorem replaceError (r : Raised) (e : ErrorObject) :
    Machine.Confined { m with store := m.store.replaceError r e } := by
  cases r with
  | error a => exact h.withStore (h.store.setError a e)
  | fault f => exact h

theorem callValue {f : Value} (hf : f.Sealed) (name : Json) {args : List Given}
    (hargs : ∀ given ∈ args, given.Sealed) : (m.callValue fuel f name args).2.Confined := by
  have hleft := (confines_callWith fuel hf hargs m h).2
  unfold Machine.callValue
  cases hcall : callWith fuel f args m with | mk out m' =>
  rw [hcall] at hleft
  cases out with
  | value v => exact hleft
  | exhausted => exact hleft
  | raised r =>
      dsimp only
      split
      · exact hleft
      · split
        · exact hleft.replaceError r _
        · exact hleft

theorem callFunction {unit : Program} (hunit : ∀ stmt ∈ unit, stmt.Unreserved) (name : Json)
    {args : List Given} (hargs : ∀ given ∈ args, given.Sealed) :
    (m.callFunction fuel unit name args).2.Confined := by
  have hdefinitions : ∀ stmt ∈ unit.filter Stmt.isDefinition, stmt.Unreserved := fun stmt hmem =>
    hunit stmt (List.mem_of_mem_filter hmem)
  have hleft := ((confines_restoreNames.bind fun _ _ => confines_runAll fuel hdefinitions) m h).2
  unfold Machine.callFunction
  generalize (do Run.restoreNames; runAll fuel (unit.filter Stmt.isDefinition) : Run Unit) m =
    result at hleft ⊢
  obtain ⟨out, m'⟩ := result
  cases out with
  | value _ =>
      dsimp only
      cases hfind : m'.findFunction name with
      | ok f => exact hleft.callValue fuel (hleft.findFunction hfind) name hargs
      | error f => exact hleft
  | raised r => exact hleft
  | exhausted => exact hleft

theorem clearScope : m.clearScope.Confined :=
  ⟨h.store, h.names, .inl rfl, nofun⟩

theorem clearRegistry : m.clearRegistry.Confined := ⟨h.store, h.names, h.atHand, h.scope⟩

end Machine.Confined

end Script

namespace ExecutionWorker

open Script (Value AreSealed compileSource)

/-- A worker and the cache that it reads, from both of which nothing leads to the dictionary of the
predefined names but the name that it is bound to. -/
structure Confined (w : ExecutionWorker) (cache : BlockCache Value) : Prop where
  machine : w.machine.Confined
  unit : ∀ stmt ∈ w.unit, stmt.Unreserved
  cache : ∀ slot, (cache.get slot).Sealed

theorem readArguments_sealed {cache : BlockCache Value} (hcache : ∀ slot, (cache.get slot).Sealed)
    (name : Json) {items : List Argument} {index : Nat} {given : List Script.Given}
    (hgiven : (readArguments cache name index items).1 = .ok given) :
    ∀ g ∈ given, g.Sealed := by
  induction items generalizing index given with
  | nil =>
      cases hgiven
      simp
  | cons item rest ih =>
      cases item with
      | cached slot =>
          have hread : ((cache.read .none slot).1).Sealed := by
            unfold BlockCache.read
            split
            · exact hcache _
            · trivial
          simp only [readArguments] at hgiven
          split at hgiven
          · cases hgiven
          · cases hrest : (readArguments cache name (index + 1) rest).1 with
            | error _ => simp [hrest, Except.map] at hgiven
            | ok more =>
                simp only [hrest, Except.map, Except.ok.injEq] at hgiven
                rw [← hgiven]
                exact List.forall_mem_cons.mpr ⟨hread, ih hrest⟩
      | given text =>
          simp only [readArguments] at hgiven
          split at hgiven
          · cases hrest : (readArguments cache name (index + 1) rest).1 with
            | error _ => simp [hrest, Except.map] at hgiven
            | ok more =>
                simp only [hrest, Except.map, Except.ok.injEq] at hgiven
                rw [← hgiven]
                exact List.forall_mem_cons.mpr ⟨trivial, ih hrest⟩
          · split at hgiven
            · cases hgiven
            · exact ih hgiven

section Step

variable {w : ExecutionWorker} {cache : BlockCache Value} (h : w.Confined cache) (fuel : Nat)

include h

theorem Confined.evaluate {source : Json}
    (hsource : (Message.evaluate source : Message Value).Unreserved) :
    (w.evaluate fuel source).worker.Confined cache := by
  cases hcompile : compileSource source with
  | error f =>
      rw [worker_evaluate_error fuel w (by simp [hcompile])]
      exact h
  | ok unit =>
      have hmerged : ∀ stmt ∈ w.unit ++ unit, stmt.Unreserved :=
        List.forall_mem_append.mpr ⟨h.unit, hsource unit hcompile⟩
      have hleft := h.machine.evalUnit fuel hmerged
      simp only [ExecutionWorker.evaluate, hcompile]
      cases heval : w.machine.evalUnit fuel (w.unit ++ unit) with | mk value m =>
      rw [heval] at hleft
      cases value with
      | ok v =>
          rw [worker_sayText]
          exact ⟨hleft, hmerged, h.cache⟩
      | error f =>
          rw [worker_sayFailure]
          exact ⟨hleft, h.unit, h.cache⟩

theorem Confined.callWith (name : Json) {given : List Script.Given}
    (hgiven : ∀ g ∈ given, g.Sealed) : (w.callWith fuel name given).worker.Confined cache := by
  have hleft := h.machine.callFunction fuel h.unit name hgiven
  unfold ExecutionWorker.callWith
  cases hcall : w.machine.callFunction fuel w.unit name given with | mk value m =>
  rw [hcall] at hleft
  cases value with
  | ok v =>
      dsimp only
      rw [worker_sendValue]
      exact ⟨hleft, h.unit, h.cache⟩
  | error f =>
      dsimp only
      rw [worker_sayFailure]
      exact ⟨hleft, h.unit, h.cache⟩

theorem Confined.evaluateFunction (name : Json) (args : Arguments) :
    (w.evaluateFunction fuel cache name args).worker.Confined cache := by
  unfold ExecutionWorker.evaluateFunction
  split
  · exact h
  · dsimp only
    split
    · exact h.callWith fuel name (readArguments_sealed h.cache name ‹_›)
    · exact h

theorem Confined.reset (clearScope clearUnit : Bool) :
    (w.reset clearScope clearUnit).worker.Confined cache := by
  have hmachine : (if clearScope then w.machine.clearScope else w.machine).Confined := by
    split
    · exact h.machine.clearScope
    · exact h.machine
  unfold ExecutionWorker.reset
  cases clearUnit with
  | true => exact ⟨hmachine.clearRegistry, by simp, h.cache⟩
  | false => exact ⟨hmachine, h.unit, h.cache⟩

theorem Confined.build : (w.build fuel).worker.Confined cache := by
  have hname : ¬Script.IsReserved "codegen" := by decide +kernel
  obtain ⟨unit, hcompile, hunit⟩ : ∃ unit, compileSource buildSource = .ok unit ∧
      ∀ stmt ∈ unit, stmt.Unreserved :=
    ⟨_, compileSource_build, by
      simpa [Script.Stmt.Unreserved, Script.Expr.Unreserved, Script.AllUnreserved] using hname⟩
  have hleft := h.machine.evalUnit fuel hunit
  simp only [ExecutionWorker.build, Script.Machine.evalSource, hcompile]
  cases heval : w.machine.evalUnit fuel unit with | mk value m =>
  rw [heval] at hleft
  cases value with
  | ok v =>
      rw [worker_sayText]
      exact ⟨hleft, h.unit, h.cache⟩
  | error f =>
      rw [worker_sayFailure]
      exact ⟨hleft, h.unit, h.cache⟩

/-- One request whose script has no reserved names keeps worker and cache confined. -/
theorem Confined.step {request : Message Value} (hrequest : request.Unreserved) :
    (step fuel cache w request).worker.Confined cache := by
  rw [worker_step]
  cases request with
  | evaluate source => exact h.evaluate fuel hrequest
  | evaluateFunction name args => exact h.evaluateFunction fuel name args
  | resetScope clearScope clearUnit => exact h.reset _ _
  | build => exact h.build fuel
  | runRange _ | fetchBlock _ | text _ | json _ | blockCacheUpdated _ _ | cleared | shutdown
  | cacheRef _ | other _ => exact h

end Step

/-- The worker while another one keeps what it fetched in the store and in the cache. -/
def sharing (w : ExecutionWorker) (u : StreamingWorker) : ExecutionWorker :=
  { w with machine := { w.machine with store := u.store } }

/-- What a worker and the cache that it reads come to by requests whose scripts have no reserved
names, and by records that are fetched in between. -/
inductive Reached : ExecutionWorker → BlockCache Value → Prop
  | start : Reached {} (.empty .none)
  | handled {w : ExecutionWorker} {cache : BlockCache Value} (fuel : Nat)
      {request : Message Value} : Reached w cache → request.Unreserved →
      Reached (step fuel cache w request).worker cache
  | fetched {w : ExecutionWorker} {u : StreamingWorker} (target : StreamingWorker.Target)
      (v : Json Points) : Reached w u.cache → u.store = w.machine.store →
      Reached (w.sharing (u.deliver target v).2) (u.deliver target v).2.cache

theorem Reached.confined {w : ExecutionWorker} {cache : BlockCache Value} (h : Reached w cache) :
    w.Confined cache := by
  induction h with
  | start => exact ⟨Script.Machine.confined_start, nofun, fun slot => by cases slot <;> trivial⟩
  | handled fuel _ hrequest ih => exact ih.step fuel hrequest
  | @fetched w u target v _ hstore ih =>
      have hsealed := Script.Store.sealed_ofJson ih.machine.store v
      rw [← hstore] at hsealed
      obtain ⟨hv, hkept⟩ := hsealed
      refine ⟨ih.machine.withStore ?_, ih.unit, fun slot => ?_⟩
      · cases target <;> exact hkept
      · cases target with
        | passedOn => exact ih.cache slot
        | cached given written =>
            change ((u.cache.set written (u.store.ofJson v).1).get slot).Sealed
            rw [BlockCache.get_set]
            split
            · exact hv
            · exact ih.cache slot

/-- As long as no script has a reserved name in it, the predefined names are those of the engine. -/
theorem Reached.intact {w : ExecutionWorker} {cache : BlockCache Value} (h : Reached w cache) :
    w.machine.store.Intact :=
  h.confined.machine.store.intact

end ExecutionWorker

end BlockWorkbench
