import BlockWorkbench.Proofs.Worker.Reading

/-!
The two ways to call a function: by its name with texts of JSON, and by a script. A call by name
runs the definitions of the unit again and nothing else of it; behind them both ways do the same.
-/

namespace BlockWorkbench

namespace Script

mutual

/-- The expression that makes a value again, if it is made of empty values, truth values, integers,
strings and lists. -/
def literal? : Json Points → Option Expr
  | .null => some .none
  | .bool b => some (.bool b)
  | .int n => some (if n < 0 then .unary .minus (.int n.natAbs) else .int n.natAbs)
  | .str t => some (.str t)
  | .list items => (literals? items).map .list
  | .float _ | .object _ => none

def literals? : List (Json Points) → Option (List Expr)
  | [] => some []
  | v :: rest => do return (← literal? v) :: (← literals? rest)

end

theorem each_take (values : List (Json Points)) :
    Run.each Given.take (values.map .data) = Run.make (·.ofJsonItems values) := by
  induction values with
  | nil => rfl
  | cons v rest ih =>
      funext m
      rw [List.map_cons, Run.each, ih]
      rfl

mutual

/-- With fuel enough a literal makes the value that the data it was made from becomes. -/
theorem eval_literal (place : Place) {v : Json Points} {e : Expr} (h : literal? v = some e) :
    ∃ least, ∀ fuel, least ≤ fuel → eval fuel place e = Run.make (·.ofJson v) := by
  cases v with
  | null | bool _ | str _ =>
      cases h
      exact ⟨1, fun | _ + 1, _ => rfl⟩
  | int n =>
      cases h
      refine ⟨2, fun | fuel + 2, _ => ?_⟩
      split_ifs with hn
      · have habs : -(n.natAbs : Int) = n := by omega
        funext m
        change (Outcome.value (Value.int (-(n.natAbs : Int))), m) = (.value (.int n), m)
        rw [habs]
      · have habs : (n.natAbs : Int) = n := by omega
        funext m
        change (Outcome.value (Value.int (n.natAbs : Int)), m) = (.value (.int n), m)
        rw [habs]
  | list items =>
      obtain ⟨es, hes, rfl⟩ := Option.map_eq_some_iff.mp h
      obtain ⟨least, hitems⟩ := each_eval_literals place hes
      refine ⟨least + 1, fun | fuel + 1, hfuel => ?_⟩
      rw [eval, hitems fuel (Nat.le_of_succ_le_succ hfuel)]
      rfl
  | float _ | object _ => cases h

theorem each_eval_literals (place : Place) {values : List (Json Points)} {es : List Expr}
    (h : literals? values = some es) : ∃ least, ∀ fuel, least ≤ fuel →
      Run.each (eval fuel place) es = Run.make (·.ofJsonItems values) := by
  cases values with
  | nil =>
      cases h
      exact ⟨0, fun _ _ => rfl⟩
  | cons v rest =>
      simp only [literals?, Option.bind_eq_bind, Option.bind_eq_some_iff, Option.pure_def,
        Option.some.injEq] at h
      obtain ⟨e, he, es, hes, rfl⟩ := h
      obtain ⟨least, hv⟩ := eval_literal place he
      obtain ⟨least', hrest⟩ := each_eval_literals place hes
      refine ⟨max least least', fun fuel hfuel => ?_⟩
      rw [Run.each, hv fuel (le_of_max_le_left hfuel), hrest fuel (le_of_max_le_right hfuel)]
      rfl

end

theorem callWith_data (fuel : Nat) (f : Value) (values : List (Json Points)) (m : Machine) :
    callWith fuel f (values.map .data) m = call fuel f (m.store.ofJsonItems values).1
      { m with store := (m.store.ofJsonItems values).2 } := by
  rw [callWith, each_take]
  rfl

/-- Only what can be called gives a value when it is called. -/
theorem isCallable_of_callWith {fuel : Nat} {f v : Value} {given : List Given} {m m' : Machine}
    (h : callWith fuel f given m = (.value v, m')) : f.isCallable = true := by
  rw [callWith, bind_apply] at h
  split at h
  · rename_i args m₁ _
    cases fuel with
    | zero => cases h
    | succ fuel =>
        cases f with
        | function _ | builtin _ | errorClass _ | method _ _ => rfl
        | none | bool _ | int _ | float _ | str _ | tuple _ | range _ _ _ | list _ | dict _
        | error _ =>
            rw [call] at h
            cases h
            all_goals simp
  · cases h
  · cases h

theorem callWith_mono {fuel fuel' : Nat} (hfuel : fuel ≤ fuel') {f v : Value} {given : List Given}
    {m m' : Machine} (h : callWith fuel f given m = (.value v, m')) :
    callWith fuel' f given m = (.value v, m') := by
  have hlasts : (callWith fuel f given).Lasts (callWith fuel' f given) :=
    .bind (.refl _) fun args => lasts_call hfuel f args
  rw [hlasts m (by rw [h]; simp), h]

namespace Machine

theorem rerun_mono {fuel fuel' : Nat} (hfuel : fuel ≤ fuel') {m m' : Machine} {unit : Program}
    (h : m.rerun fuel unit = (.value (), m')) : m.rerun fuel' unit = (.value (), m') := by
  have hlasts : (do Run.restoreNames; runAll fuel unit : Run Unit).Lasts
      (do Run.restoreNames; runAll fuel' unit) :=
    .bind (.refl _) fun _ => lasts_runAll hfuel unit
  have hended : (m.rerun fuel unit).1 ≠ .exhausted := by
    rw [h]
    simp
  exact (hlasts m hended).trans h

variable (m : Machine) (fuel : Nat) {unit : Program} {name : String} {f v : Value} {m' : Machine}

theorem findFunction_eq_ok :
    m.findFunction (.str name) = .ok f ↔ bound? m.scope name = some f ∧ f.isCallable = true := by
  simp only [findFunction]
  split
  · simp_all
  · rename_i hnone
    simp only [hnone, reduceCtorEq, Option.some.injEq, false_iff, not_and]
    rintro rfl
    simp [Value.isCallable]
  · rename_i g _ hg
    split_ifs with hcallable
    · simp only [hg, Except.ok.injEq, Option.some.injEq, iff_self_and]
      rintro rfl
      exact hcallable
    · simp only [hg, Option.some.injEq, false_iff, not_and]
      rintro rfl
      exact hcallable

theorem callValue_eq_ok {name : Json} {given : List Given} :
    m.callValue fuel f name given = (.ok v, m') ↔ callWith fuel f given m = (.value v, m') := by
  simp only [callValue]
  split
  · rename_i hcall
    simp [hcall]
  · rename_i hcall
    rw [hcall]
    split
    · simp
    · split <;> simp
  · rename_i hcall
    simp [hcall]

/-- A call by name gives a value if the function that the definitions of the unit leave bound to
the name gives it. -/
theorem callFunction_eq_ok {given : List Given} :
    m.callFunction fuel unit (.str name) given = (.ok v, m') ↔
      ∃ m₀ f, m.rerun fuel (unit.filter Stmt.isDefinition) = (.value (), m₀) ∧
        bound? m₀.scope name = some f ∧ f.isCallable = true ∧
        callWith fuel f given m₀ = (.value v, m') := by
  have hrerun : m.rerun fuel (unit.filter Stmt.isDefinition) =
      (do Run.restoreNames; runAll fuel (unit.filter Stmt.isDefinition) : Run Unit) m := rfl
  rw [callFunction, ← hrerun]
  cases m.rerun fuel (unit.filter Stmt.isDefinition) with | mk out m₀ =>
  cases out with
  | value _ =>
      cases hfind : m₀.findFunction (.str name) with
      | ok f =>
          obtain ⟨hbound, hcallable⟩ := (findFunction_eq_ok m₀).mp hfind
          simp [hfind, callValue_eq_ok, hbound, hcallable]
      | error e =>
          simp only [hfind, Prod.mk.injEq, reduceCtorEq, false_and, true_and, false_iff]
          rintro ⟨_, f, rfl, hbound, hcallable, -⟩
          rw [(findFunction_eq_ok m₀).mpr ⟨hbound, hcallable⟩] at hfind
          cases hfind
  | raised r => simp
  | exhausted => simp

/-- The names that users see are bound behind a unit that was run again. -/
theorem bound?_scope_rerun {out : Outcome Unit} {m₀ : Machine}
    (hrun : m.rerun fuel unit = (out, m₀)) (hname : (bound? m.bindings name).isSome) :
    ∃ f, bound? m₀.scope name = some f := by
  have h := bound?_rerun m fuel hrun hname
  rw [bound?_bindings] at h
  split at h
  · cases h
  · exact Option.isSome_iff_exists.mp h

/-- A script that is a call behind a unit gives a value if the function that the unit leaves bound
to the name gives it. -/
theorem evalUnit_append_call {es : List Expr} {values : List (Json Points)}
    (hliterals : Run.each (eval (fuel + 1) none) es = Run.make (·.ofJsonItems values))
    (hname : (bound? m.bindings name).isSome) :
    m.evalUnit (fuel + 2) (unit ++ [.expr (.call (.name name) es)]) = (.ok v, m') ↔
      ∃ m₀ f m₁, m.rerun (fuel + 2) unit = (.value (), m₀) ∧ bound? m₀.scope name = some f ∧
        callWith (fuel + 1) f (values.map .data) m₀ = (.value v, m₁) ∧
        m' = { m₁ with names := m₀.namesAtHand } := by
  rw [evalUnit_eq_settle, evalProgram_append_expr]
  cases hrun : m.rerun (fuel + 2) unit with | mk out m₀ =>
  cases out with
  | value _ =>
      obtain ⟨f, hf⟩ := bound?_scope_rerun m _ hrun hname
      -- A call is not aware of where top level finds the predefined names, so it runs as from `m₀`.
      have hcall : eval (fuel + 2) none (.call (.name name) es)
          { m₀ with names := m₀.namesAtHand } =
            ((callWith (fuel + 1) f (values.map .data) m₀).1,
              { (callWith (fuel + 1) f (values.map .data) m₀).2 with names := m₀.namesAtHand }) := by
        rw [eval, hliterals, callWith_data, ← unaware_call]
        simp [bind_apply, eval, Run.nameValue, valueOf, globalValue, hf, Run.make]
      cases hout : callWith (fuel + 1) f (values.map .data) m₀ with | mk out m₁ =>
      rw [hout] at hcall
      cases out with
      | value w =>
          simp only [hcall, settle, Prod.mk.injEq, Except.ok.injEq, true_and]
          constructor
          · rintro ⟨rfl, rfl⟩
            exact ⟨m₀, f, m₁, rfl, hf, hout, rfl⟩
          · rintro ⟨_, f', m₁', rfl, hf', hout', rfl⟩
            cases hf.symm.trans hf'
            cases hout.symm.trans hout'
            exact ⟨rfl, rfl⟩
      | raised _ | exhausted =>
          simp only [hcall, settle, Prod.mk.injEq, reduceCtorEq, false_and, true_and, false_iff]
          rintro ⟨_, f', m₁', rfl, hf', hout', -⟩
          cases hf.symm.trans hf'
          cases hout.symm.trans hout'
  | raised r => simp [settle]
  | exhausted => simp [settle]

end Machine

end Script

namespace ExecutionWorker

open Script (Value Expr Stmt Machine compileSource compileSource_str bound?)

/-- A call of a function with data, in both forms: texts of JSON beside a name, and a script that is
the call with the same data as literals. -/
structure DataCall where
  name : String
  texts : List String
  values : List (Json Points)
  literals : List Expr
  source : Json
  reads : texts.map (fun text => (Json.str text).readText) = values.map .ok
  writes : Script.literals? values = some literals
  compiles : compileSource source = .ok [.expr (.call (.name name) literals)]

namespace DataCall

variable (c : DataCall) (cache : BlockCache Value) (w : ExecutionWorker) (v : Value) (d : Document)
  (text : String)

def byName : Message Value :=
  .evaluateFunction (.str c.name) (.listed (c.texts.map fun text => .given (.str text)))

def byScript : Message Value := .evaluate c.source

/-- With fuel enough the call by name is answered by the value that the function returned, which
is the data `d` and is written as `text`. -/
def ReturnsByName : Prop := ∃ least, ∀ fuel, least ≤ fuel → ∃ m,
  w.machine.callFunction fuel w.unit (.str c.name) (c.values.map .data) = (.ok v, m) ∧
  m.store.document v = .ok d ∧ m.store.literal v = .ok text ∧
  (step fuel cache w c.byName).messages = [.json v]

/-- With fuel enough the script that is the call is answered by the text of its value, which is the
data `d`. -/
def ReturnsByScript : Prop := ∃ least, ∀ fuel, least ≤ fuel → ∃ m,
  w.machine.evalUnit fuel (w.unit ++ [.expr (.call (.name c.name) c.literals)]) = (.ok v, m) ∧
  m.store.document v = .ok d ∧ m.store.literal v = .ok text ∧
  (step fuel cache w c.byScript).messages = [.text (.str ("Result: " ++ text))]

end DataCall

/-- Texts of JSON that can be read are given to a call without a warning. -/
theorem readArguments_reads (cache : BlockCache Value) (name : Json) (index : Nat)
    {texts : List String} {values : List (Json Points)}
    (h : texts.map (fun text => (Json.str text).readText) = values.map .ok) :
    readArguments cache name index (texts.map fun text => .given (.str text)) =
      (.ok (values.map .data), [], []) := by
  induction texts generalizing values index with
  | nil =>
      obtain rfl : values = [] := by simpa using h.symm
      rfl
  | cons text rest ih =>
      cases values with
      | nil => cases h
      | cons v values =>
          obtain ⟨hv, hrest⟩ := List.cons.inj h
          simp only [List.map_cons, readArguments, hv, ih (index + 1) hrest]
          rfl

variable (c : DataCall) (cache : BlockCache Value) (w : ExecutionWorker) {v : Value} {d : Document}
  {text : String} {m : Machine} {fuel : Nat}

theorem messages_byName
    (hcall : w.machine.callFunction fuel w.unit (.str c.name) (c.values.map .data) = (.ok v, m))
    (hdata : m.store.document v = .ok d) : (step fuel cache w c.byName).messages = [.json v] := by
  have hanswer : w.handle fuel cache c.byName =
      { worker := { w with machine := m }, messages := [.json v] } := by
    simp [handle, DataCall.byName, evaluateFunction, argumentsOf,
      readArguments_reads cache _ 0 c.reads, callWith, hcall, sendValue, hdata]
  rw [messages_step, hanswer]
  rfl

theorem messages_byScript
    (heval : w.machine.evalUnit fuel (w.unit ++ [.expr (.call (.name c.name) c.literals)]) =
      (.ok v, m))
    (htext : m.store.literal v = .ok text) :
    (step fuel cache w c.byScript).messages = [.text (.str ("Result: " ++ text))] := by
  rw [messages_step, DataCall.byScript, handle, evaluate, c.compiles]
  simp only [heval, htext]
  rfl

/-- A call by name does what the call in a script does behind any unit that leaves what the
definitions alone leave. -/
theorem returnsByName_iff {unit : Script.Program}
    (hunit : ∃ least, ∀ fuel, least ≤ fuel →
      w.machine.rerun fuel unit = w.machine.rerun fuel (w.unit.filter Stmt.isDefinition))
    (hname : (bound? w.machine.bindings c.name).isSome) :
    c.ReturnsByName cache w v d text ↔
      c.ReturnsByScript cache { w with unit := unit } v d text := by
  obtain ⟨least₀, hunit⟩ := hunit
  obtain ⟨least₁, hliterals⟩ := Script.each_eval_literals none c.writes
  constructor
  · rintro ⟨least, h⟩
    refine ⟨max (max least₀ least₁) least + 2, fun | fuel + 2, hfuel => ?_⟩
    obtain ⟨m, hcall, hdata, htext, -⟩ := h (fuel + 1) (by omega)
    obtain ⟨m₀, f, hrun, hf, -, hvalue⟩ := (Machine.callFunction_eq_ok _ _).mp hcall
    have hrun := Machine.rerun_mono (Nat.le_succ _) hrun
    rw [← hunit _ (by omega)] at hrun
    have heval := (Machine.evalUnit_append_call _ fuel (hliterals _ (by omega)) hname).mpr
      ⟨m₀, f, m, hrun, hf, hvalue, rfl⟩
    exact ⟨_, heval, hdata, htext, messages_byScript c cache { w with unit := unit } heval htext⟩
  · rintro ⟨least, h⟩
    refine ⟨max (max least₀ least₁) least + 2, fun | fuel + 2, hfuel => ?_⟩
    obtain ⟨m', heval, hdata, htext, -⟩ := h (fuel + 2) (by omega)
    obtain ⟨m₀, f, m, hrun, hf, hvalue, rfl⟩ :=
      (Machine.evalUnit_append_call _ fuel (hliterals _ (by omega)) hname).mp heval
    rw [hunit _ (by omega)] at hrun
    have hcall := (Machine.callFunction_eq_ok _ (fuel + 2)).mpr
      ⟨m₀, f, hrun, hf, Script.isCallable_of_callWith hvalue,
        Script.callWith_mono (Nat.le_succ _) hvalue⟩
    exact ⟨m, hcall, hdata, htext, messages_byName c cache w hcall hdata⟩

/-- What a call by name returns once the fuel lasts, it returns with any fuel enough. -/
theorem returnsByName_of_call (fuel : Nat)
    (hcall : w.machine.callFunction fuel w.unit (.str c.name) (c.values.map .data) = (.ok v, m))
    (hdata : m.store.document v = .ok d) (htext : m.store.literal v = .ok text) :
    c.ReturnsByName cache w v d text := by
  obtain ⟨m₀, f, hrun, hf, hcallable, hvalue⟩ := (Machine.callFunction_eq_ok _ _).mp hcall
  refine ⟨fuel, fun fuel' hfuel => ?_⟩
  have hcall' := (Machine.callFunction_eq_ok _ fuel').mpr
    ⟨m₀, f, Machine.rerun_mono hfuel hrun, hf, hcallable, Script.callWith_mono hfuel hvalue⟩
  exact ⟨m, hcall', hdata, htext, messages_byName c cache w hcall' hdata⟩

/-- A function that returns its argument, called with a list. -/
def echoCall : DataCall where
  name := "f"
  texts := ["[true]"]
  values := [.list [.bool true]]
  literals := [.list [.bool true]]
  source := .str "f([True])"
  reads := by cbv
  writes := rfl
  compiles := compileSource_str (Script.compile_of_tokens [.name "f", .op "(", .op "[",
    .keyword "True", .op "]", .op ")", .newline] (by decide) rfl rfl rfl)

/-- What is kept of the script that defines it. -/
def echo : ExecutionWorker :=
  let unit := [.define "f" [⟨"x", none⟩] [.return (some (.name "x"))]]
  { machine := (Machine.evalUnit {} 10 unit).2, unit := unit }

/-- A function that is bound to another one behind its definition, and called. -/
def reboundCall : DataCall where
  name := "f"
  texts := []
  values := []
  literals := []
  source := .str "f()"
  reads := rfl
  writes := rfl
  compiles := compileSource_str (Script.compile_of_tokens [.name "f", .op "(", .op ")", .newline]
    (by decide) rfl rfl rfl)

def rebinding : String := "def f():\n  return 1\ndef g():\n  return 2\nf = g"

/-- What is kept of that script. -/
def rebindingWorker : ExecutionWorker :=
  let unit := [
    .define "f" [] [.return (some (.int 1))], .define "g" [] [.return (some (.int 2))],
    .assign [.name "f"] (.name "g")]
  { machine := (Machine.evalUnit {} 1000 unit).2, unit := unit }

theorem evaluate_rebinding :
    evaluate {} 1000 (.str rebinding) = .say rebindingWorker "Result: None" := by
  have hsource : compileSource (.str rebinding) = .ok rebindingWorker.unit :=
    compileSource_str (Script.compile_of_tokens [
      .keyword "def", .name "f", .op "(", .op ")", .op ":", .newline,
      .indent, .keyword "return", .int 1, .newline,
      .dedent, .keyword "def", .name "g", .op "(", .op ")", .op ":", .newline,
      .indent, .keyword "return", .int 2, .newline,
      .dedent, .name "f", .op "=", .name "g", .newline] (by decide) rfl rfl rfl)
  simp only [evaluate, hsource]
  cbv

end ExecutionWorker

end BlockWorkbench
