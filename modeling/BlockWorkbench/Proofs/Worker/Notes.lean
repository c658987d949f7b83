import BlockWorkbench.Proofs.Script.Notes
import BlockWorkbench.Proofs.Worker.Reading

/-!
Where an error happened, as clients see it. A function that is called by name and fails gets a note
of its name into the error; what is published is the text of the error with the note.
-/

namespace BlockWorkbench

open Script (Value Store Given ErrorObject Machine Stmt)
open Text (Unescaped InOrder)

namespace Script.ErrorObject

/-- Whether an error made by its kind says what it was made of, whatever becomes of its arguments:
if it is a system error with two to five. -/
def Settled (kind : ErrorKind) (args : List Value) : Prop :=
  kind.isSystem = true ∧ 2 ≤ args.length ∧ args.length ≤ 5

theorem detail?_make_eq_none {kind : ErrorKind} {args : List Value} :
    (make kind args).detail? = none ↔ ¬ Settled kind args := by
  by_cases hkind : kind.isSystem = true
  · match args with
    | [] | [_] | [_, _] => simp [make, Settled, hkind]
    | v :: w :: name :: rest =>
        simp only [make, Settled, hkind, if_true, List.length_cons, true_and]
        split_ifs with hlength
        · simp
          omega
        · split <;> simp <;> omega
  · simp [make, Settled, hkind]

end Script.ErrorObject

namespace Script.Store

/-- Why a call gives no value that ended with an error. -/
def failureOfCall (s : Store) (note : String) (e : ErrorObject) : Failure :=
  if e.kind.escapes then .escaped e.kind
  else
    match s.annotate note e with
    | .ok e' => s.failureOf e'
    | .error f => .fault f

theorem failureOfCall_eq_script {s : Store} {note : String} {e : ErrorObject} {text : Points} :
    s.failureOfCall note e = .script (e.kind.text ++ ": " ++ text) ↔
      e.kind.escapes = false ∧ ∃ e', s.annotate note e = .ok e' ∧
        s.errorText s.plain e' = .ok text ∧ e'.kind = e.kind := by
  unfold failureOfCall
  cases hescapes : e.kind.escapes with
  | true => simp
  | false =>
      cases hnoted : s.annotate note e with
      | error f => simp
      | ok e' =>
          have hkind := (kept_of_annotate hnoted).kind
          cases htext : s.errorText s.plain e' with
          | error f => simp [failureOf, describe, htext, hkind, hescapes]
          | ok t => simp [failureOf, describe, htext, hkind, hescapes]

end Script.Store

namespace ExecutionWorker

/-- Whether a call by name reaches a function that ends with the error `e`, in the store `s`. -/
def CallRaises (fuel : Nat) (cache : BlockCache Value) (w : ExecutionWorker) (name : String)
    (items : List Argument) (s : Store) (e : ErrorObject) : Prop :=
  ∃ given warnings records m₀ f r m,
    readArguments cache (.str name) 0 items = (.ok given, warnings, records) ∧
    w.machine.rerun fuel (w.unit.filter Stmt.isDefinition) = (.value (), m₀) ∧
    m₀.findFunction (.str name) = .ok f ∧
    Script.callWith fuel f given m₀ = (.raised r, m) ∧ m.store = s ∧ s.errorOf r = e

/-- What is published last of an error with some text. -/
def errorMessage (e : ErrorObject) (text : Points) : Message Value :=
  .text (.str ("Error: " ++ (e.kind.text ++ ": " ++ text)))

variable {fuel : Nat} {cache : BlockCache Value} {w : ExecutionWorker} {name : String}
  {items : List Argument} {s : Store} {e : ErrorObject}

/-- What is said of arguments that are dropped is not said of an error. -/
theorem getLast?_warnings_ne (dropped : List (Nat × String)) (text : Points) :
    (dropped.map (warning (.str name))).getLast? ≠ some (errorMessage e text) := by
  rw [List.getLast?_map]
  rintro h
  obtain ⟨d, -, hd⟩ := Option.map_eq_some_iff.mp h
  rw [warning, errorMessage, Message.text.injEq, Json.str.injEq] at hd
  simpa [toString, Points.ofString] using congrArg List.head? hd

/-- The words for a request that could not be dealt with are those of no error. -/
theorem refusal_ne_errorMessage (args : Arguments) (text : Points) :
    refusal (.evaluateFunction (.str name) args) ≠ errorMessage e text := by
  intro h
  rw [refusal_evaluateFunction, errorMessage, Message.text.injEq, Json.str.injEq,
    List.append_cancel_left_eq] at h
  have hcolon : .ofChar ':' ∈ Points.ofString "internal failure handling EvaluateFunction" := by
    rw [h]
    simp [Points.ofString]
  exact absurd hcolon (by decide)

theorem handle_callRaises (h : CallRaises fuel cache w name items s e) :
    ∃ (dropped : List (Nat × String)) (w' : ExecutionWorker),
      let answer := w.handle fuel cache (.evaluateFunction (.str name) (.listed items))
      let said := sayFailure w' "Error: " (s.failureOfCall ("in " ++ name) e)
      answer.messages = dropped.map (warning (.str name)) ++ said.messages ∧
        answer.ending = said.ending := by
  obtain ⟨given, warnings, records, m₀, f, r, m, hargs, hrun, hfind, hcall, rfl, rfl⟩ := h
  obtain ⟨dropped, hwarnings, -⟩ := readArguments_warnings cache (.str name) 0 items
  have hplain : (Json.str name).plain = name := rfl
  rw [Machine.rerun] at hrun
  rw [hargs] at hwarnings
  obtain ⟨m', hfailure⟩ : ∃ m', w.machine.callFunction fuel w.unit (.str name) given =
      (.error (m.store.failureOfCall ("in " ++ name) (m.store.errorOf r)), m') := by
    simp only [Machine.callFunction, hrun, hfind, Machine.callValue, hcall, hplain,
      Store.failureOfCall]
    split
    · exact ⟨_, rfl⟩
    · cases m.store.annotate ("in " ++ name) (m.store.errorOf r) <;> exact ⟨_, rfl⟩
  refine ⟨dropped, { w with machine := m' }, ?_⟩
  simp only [handle, evaluateFunction, argumentsOf, hargs, callWith, hfailure]
  exact ⟨congrArg (· ++ _) hwarnings, trivial⟩

/-- What is published last if a called function fails: the text of the error with a note of the
function, if it has one and the error does not escape. -/
theorem messages_callRaises (h : CallRaises fuel cache w name items s e) (text : Points) :
    (step fuel cache w (.evaluateFunction (.str name) (.listed items))).messages.getLast? =
        some (errorMessage e text) ↔
      e.kind.escapes = false ∧ ∃ e', s.annotate ("in " ++ name) e = .ok e' ∧
        s.errorText s.plain e' = .ok text ∧ e'.kind = e.kind := by
  obtain ⟨dropped, w', hmessages, hending⟩ := handle_callRaises h
  rw [← Store.failureOfCall_eq_script, messages_step, hmessages, hending]
  cases s.failureOfCall ("in " ++ name) e with
  | script line => simp [sayFailure, Handled.say, errorMessage]
  | escaped kind =>
      simpa [sayFailure, Handled.breakOff] using getLast?_warnings_ne dropped text
  | fault _ | unfinished =>
      simp only [sayFailure, Handled.giveUp, true_and, List.append_nil, reduceCtorEq, iff_false]
      split
      · simp [refusal_ne_errorMessage]
      · simpa using getLast?_warnings_ne dropped text

end ExecutionWorker

open ExecutionWorker (CallRaises step errorMessage)

/-- Notes put into an error that is made by its kind are seen in its text, in order, exactly if
its arguments can be written and it does not say what it was made of whatever becomes of them. All
arguments but one are as before. Likewise what is published of an error in a called function shows
the note of the function, unless it escapes. -/
theorem Script.ErrorObject.notes_visible_iff (s : Store) (kind : ErrorKind) (args : List Value) :
    let e := make kind args
    (∀ notes, notes ≠ [] → (∀ note ∈ notes, Unescaped note) →
      ((∃ e', s.annotateAll notes e = .ok e' ∧ s.Shows e' notes) ↔
        s.Legible e ∧ (Settled kind args → s.Shows e notes))) ∧
    (∀ notes e', notes ≠ [] → s.annotateAll notes e = .ok e' →
      e'.kind = e.kind ∧ ∀ i, i ≠ e.notedIndex → e'.args[i]? = e.args[i]?) ∧
    ∀ fuel cache w name items, Unescaped name → CallRaises fuel cache w name items s e →
      ((∃ text, (step fuel cache w
          (.evaluateFunction (.str name) (.listed items))).messages.getLast? =
            some (errorMessage e text) ∧ InOrder ["in " ++ name] text.toString.toList) ↔
        e.kind.escapes = false ∧ s.Legible e ∧
          (Settled kind args → s.Shows e ["in " ++ name])) := by
  intro e
  have hsettled (texts : List String) :
      (e.detail? = none ∨ s.Shows e texts) ↔ (Settled kind args → s.Shows e texts) := by
    rw [detail?_make_eq_none, ← imp_iff_not_or]
  have hvisible : ∀ notes, notes ≠ [] → (∀ note ∈ notes, Unescaped note) →
      ((∃ e', s.annotateAll notes e = .ok e' ∧ s.Shows e' notes) ↔
        s.Legible e ∧ (Settled kind args → s.Shows e notes)) := by
    intro notes hne hnotes
    rw [Store.shows_notes_iff hne hnotes, hsettled]
  refine ⟨hvisible, fun notes e' hne he' => ?_, fun fuel cache w name items hname hraises => ?_⟩
  · have hkept := Store.kept_of_annotateAll hne he'
    exact ⟨hkept.kind, hkept.others⟩
  · have hnote : Unescaped ("in " ++ name) :=
      Text.unescaped_append.mpr ⟨Text.unescaped_of_words (by simp), hname⟩
    simp only [← hvisible ["in " ++ name] (by simp) (by simpa using hnote),
      ExecutionWorker.messages_callRaises hraises, Store.annotateAll_single]
    constructor
    · rintro ⟨t, ⟨hkept, e', he', ht, -⟩, horder⟩
      exact ⟨hkept, e', he', t, ht, horder⟩
    · rintro ⟨hkept, e', he', t, ht, horder⟩
      exact ⟨t, ⟨hkept, e', he', ht, (Store.kept_of_annotate he').kind⟩, horder⟩

/-- A unit whose function raises an error of two arguments. -/
def ExecutionWorker.raising : ExecutionWorker where
  unit := [.define "f" []
    [.raise (some (.call (.name "ValueError") [.str (.ofString "a"), .str (.ofString "b")]))]]

/-- Both notes and the name of the function are seen. -/
theorem Script.ErrorObject.notes_visible_iff_value :
    let e := make .value [.str (.ofString "a"), .str (.ofString "b")]
    ∃ s, CallRaises 10 (.empty .none) ExecutionWorker.raising "f" [] s e ∧
      (∃ e', s.annotateAll ["in f", "at 1"] e = .ok e' ∧ e'.args[1]? = e.args[1]? ∧
        s.Shows e' ["in f", "at 1"]) ∧
      ∃ text, (step 10 (.empty .none) ExecutionWorker.raising
        (.evaluateFunction (.str "f") (.listed []))).messages.getLast? =
          some (errorMessage e text) ∧ InOrder ["in f"] text.toString.toList := by
  intro e
  obtain ⟨s, hraises⟩ : ∃ s, CallRaises 10 (.empty .none) ExecutionWorker.raising "f" [] s e :=
    ⟨_, [], [], [], _, _, _, _, rfl, rfl, rfl, rfl, rfl, rfl⟩
  have hlegible : s.Legible e := by
    refine ⟨fun v hv => ?_, fun _ i v hi hv => ?_⟩
    · cases hv
      exact ⟨_, rfl⟩
    · obtain _ | _ | i := i
      · exact absurd rfl hi
      · cases hv
        exact ⟨_, rfl⟩
      · cases hv
  have hsettled (texts : List String) : Settled .value e.args → s.Shows e texts := by
    rintro ⟨⟨⟩, -⟩
  obtain ⟨hvisible, hkept, hpublished⟩ :=
    notes_visible_iff s .value [.str (.ofString "a"), .str (.ofString "b")]
  have hnotes : ∀ note ∈ ["in f", "at 1"], Unescaped note := by
    simp only [List.forall_mem_cons, List.not_mem_nil, false_imp_iff, implies_true, and_true]
    exact ⟨Text.unescaped_of_words (by simp), Text.unescaped_of_words (by simp)⟩
  obtain ⟨e', he', hshows⟩ :=
    (hvisible ["in f", "at 1"] (by simp) hnotes).mpr ⟨hlegible, hsettled _⟩
  refine ⟨s, hraises, ⟨e', he', (hkept _ e' (by simp) he').2 1 (by decide), hshows⟩, ?_⟩
  exact (hpublished 10 _ _ "f" [] (Text.unescaped_of_words (by simp)) hraises).mpr
    ⟨rfl, hlegible, hsettled _⟩

/-- The note is put behind the second argument of this error, and its text goes on saying only
what it was made of. -/
theorem Script.ErrorObject.system_error_hides_note :
    let s : Store := {}
    let e := make .os [.int 2, .str (.ofString "gone")]
    s.Legible e ∧ ∃ e', s.annotate "in foo" e = .ok e' ∧
      e'.args = [.int 2, .str (.ofString "gone in foo")] ∧
      s.errorText s.plain e' = .ok (.ofString "[Errno 2] gone") ∧ ¬ s.Shows e' ["in foo"] := by
  intro s e
  have hnumber : s.plain (.int 2) = .ok (.ofString "2") := by
    have hplain : s.plain (.int 2) = (Script.integerText 2).map .ofString := rfl
    rw [hplain, Script.integerText_digit (by decide)]
    rfl
  have htext : s.errorText s.plain { e with args := [.int 2, .str (.ofString "gone in foo")] } =
      .ok (.ofString "[Errno 2] gone") := by
    have hgone : s.plain (.str (.ofString "gone")) = .ok (.ofString "gone") := rfl
    simp only [Store.errorText, e, make, ErrorKind.isSystem, if_true, hnumber, hgone, ok_bind]
    simp [Points.ofString]
  have hlegible : s.Legible e :=
    ⟨fun v hv => by cases hv; exact ⟨_, rfl⟩, fun hnone => (Option.some_ne_none _ hnone).elim⟩
  refine ⟨hlegible, _, ?_, rfl, htext, ?_⟩
  · have hpoints : Points.ofString "gone" ++ .ofString (" " ++ "in foo") =
        .ofString "gone in foo" := by simp [Points.ofString]
    rw [Store.annotate_eq]
    exact congrArg (fun t => Except.ok { e with args := [.int 2, .str t] }) hpoints
  · rintro ⟨t, ht, before, after, hin, -⟩
    obtain rfl := Except.ok.inj (htext.symm.trans ht)
    rw [Points.toString_ofString] at hin
    have hfound : "in foo".toList <:+: "[Errno 2] gone".toList := ⟨before, after, hin.symm⟩
    exact absurd hfound (by decide)

end BlockWorkbench
