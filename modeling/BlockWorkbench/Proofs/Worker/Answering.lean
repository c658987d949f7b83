import BlockWorkbench.ExecutionWorker
import BlockWorkbench.Proofs.Handling
import BlockWorkbench.Proofs.Json.Strings
import BlockWorkbench.Proofs.Script.Compiling

/-!
What a worker that runs scripts says to requests. A request has its answer whatever goes wrong on
the way, one message, or for a call the warnings about its arguments and one message behind them,
unless the request breaks the worker off. That happens where a script raises an error that escapes,
and where a request that is given up is nested too deep to be reported. A run up to a shutdown says
the answers one after another exactly if no request before the shutdown is of these.
-/

namespace BlockWorkbench

namespace Message

/-- Whether a message asks something of the worker that runs scripts. -/
def isExecution {α : Type} : Message α → Bool
  | evaluate _ | evaluateFunction .. | resetScope .. | build => true
  | _ => false

@[simp]
theorem isTooDeep_build (s : Script.Store) : (build : Message Script.Value).isTooDeep s = false := rfl

@[simp]
theorem isTooDeep_evaluate_str (s : Script.Store) (text : String) :
    (evaluate (.str text) : Message Script.Value).isTooDeep s = false := rfl

end Message

namespace ExecutionWorker

open Script (Value compileSource)

/-- The message about a request that could not be dealt with. -/
def refusal (request : Message Value) : Message Value :=
  .text (.str ("Error: internal failure handling " ++ request.className))

theorem refusal_evaluateFunction (name : Json) (args : Arguments) :
    refusal (.evaluateFunction name args) =
      .text (.str ("Error: " ++ "internal failure handling EvaluateFunction")) := by
  simp [refusal, Message.className, Points.ofString]

/-- The message about an argument that is dropped from a call: its place, and why. -/
def warning (name : Json) (dropped : Nat × String) : Message Value :=
  .text (.str (.ofString
    (s!"Warning: dropped argument {dropped.1} of " ++ name.plain ++ ": " ++ dropped.2)))

/-- The answers to a request. Only a call is answered by more than one message. -/
inductive Answers : Message Value → List (Message Value) → Prop
  | evaluated (source : Json) (line : Points) :
      Answers (.evaluate source) [.text (.str ("Result: " ++ line))]
  | notEvaluated (source : Json) : Answers (.evaluate source) [refusal (.evaluate source)]
  | built (line : Points) : Answers .build [.text (.str ("Build " ++ line))]
  | notBuilt : Answers .build [refusal .build]
  | reset (clearScope clearUnit : Json) : Answers (.resetScope clearScope clearUnit) [.cleared]
  | returned (name : Json) (args : Arguments) (dropped : List (Nat × String)) (v : Value) :
      dropped.Pairwise (·.1 < ·.1) →
      Answers (.evaluateFunction name args) (dropped.map (warning name) ++ [.json v])
  | failed (name : Json) (args : Arguments) (dropped : List (Nat × String)) (line : Points) :
      dropped.Pairwise (·.1 < ·.1) →
      Answers (.evaluateFunction name args)
        (dropped.map (warning name) ++ [.text (.str ("Error: " ++ line))])
  | unknown (request : Message Value) :
      request.isExecution = false → Answers request [refusal request]

/-- What is said of a request that breaks the worker off: at most warnings about arguments. -/
inductive LeavesOpen : Message Value → List (Message Value) → Prop
  | silent (request : Message Value) : LeavesOpen request []
  | warned (name : Json) (args : Arguments) (dropped : List (Nat × String)) :
      dropped.Pairwise (·.1 < ·.1) →
      LeavesOpen (.evaluateFunction name args) (dropped.map (warning name))

section Breaking

variable (fuel : Nat) (cache : BlockCache Value) (w : ExecutionWorker)

/-- Whether a script that a request runs raises an error that escapes. -/
def Interrupts : Message Value → Prop
  | .evaluate source => ∃ unit kind, compileSource source = .ok unit ∧
      (w.machine.evalUnit fuel (w.unit ++ unit)).1 = .error (.escaped kind)
  | .evaluateFunction name args => ∃ items given kind, argumentsOf args = .ok items ∧
      (readArguments cache name 0 items).1 = .ok given ∧
      (w.machine.callFunction fuel w.unit name given).1 = .error (.escaped kind)
  | .build => ∃ kind, (w.machine.evalSource fuel buildSource).1 = .error (.escaped kind)
  | _ => False

/-- Whether a request cannot be dealt with and is nested too deep to be reported. -/
def Unreportable (request : Message Value) : Prop :=
  (w.handle fuel cache request).ending = .undone ∧
    request.isTooDeep (w.handle fuel cache request).worker.machine.store = true

/-- Whether a request breaks the worker off. -/
def Breaks (request : Message Value) : Prop :=
  w.Interrupts fuel cache request ∨ w.Unreportable fuel cache request

end Breaking

/-- The warnings about arguments name their places in ascending order. -/
theorem readArguments_warnings (cache : BlockCache Value) (name : Json) (index : Nat)
    (items : List Argument) :
    ∃ dropped : List (Nat × String),
      (readArguments cache name index items).2.1 = dropped.map (warning name) ∧
        dropped.Pairwise (·.1 < ·.1) ∧ ∀ d ∈ dropped, index ≤ d.1 := by
  induction items generalizing index with
  | nil => exact ⟨[], rfl, .nil, by simp⟩
  | cons item rest ih =>
      obtain ⟨dropped, hmessages, hordered, hfrom⟩ := ih (index + 1)
      have hfrom' : ∀ d ∈ dropped, index ≤ d.1 := fun d hd => Nat.le_of_succ_le (hfrom d hd)
      cases item with
      | cached slot =>
          simp only [readArguments]
          split
          · exact ⟨[], rfl, .nil, by simp⟩
          · exact ⟨dropped, hmessages, hordered, hfrom'⟩
      | given text =>
          simp only [readArguments]
          split
          · exact ⟨dropped, hmessages, hordered, hfrom'⟩
          · rename_i f _
            split
            · exact ⟨[], rfl, .nil, by simp⟩
            · refine ⟨(index, f.message) :: dropped, by simp [warning, hmessages], ?_, ?_⟩
              · exact List.pairwise_cons.mpr ⟨fun d hd => hfrom d hd, hordered⟩
              · simpa using hfrom'

section Endings

variable (w : ExecutionWorker) (lead : String)

/-- A line is said, or the request is given up without a word. -/
theorem sayText_cases (text : Except Script.RuntimeFault Points) :
    (∃ line, sayText w lead text = .say w (lead ++ line)) ∨ sayText w lead text = .giveUp w := by
  cases text with
  | ok line => exact .inl ⟨line, rfl⟩
  | error => exact .inr rfl

theorem sayFailure_cases (f : Script.Failure) :
    (∃ line, sayFailure w lead f = .say w (lead ++ line)) ∨ sayFailure w lead f = .giveUp w ∨
      sayFailure w lead f = .breakOff w := by
  cases f with
  | script text => exact .inl ⟨text, rfl⟩
  | escaped => exact .inr (.inr rfl)
  | fault | unfinished => exact .inr (.inl rfl)

@[simp]
theorem ending_sayText (text : Except Script.RuntimeFault Points) :
    (sayText w lead text).ending ≠ .broken := by
  cases text <;> simp [sayText, Handled.say, Handled.giveUp]

@[simp]
theorem ending_sayFailure (f : Script.Failure) :
    (sayFailure w lead f).ending = .broken ↔ ∃ kind, f = .escaped kind := by
  cases f <;> simp [sayFailure, Handled.say, Handled.giveUp, Handled.breakOff]

@[simp]
theorem ending_sendValue (v : Value) : (w.sendValue v).ending ≠ .broken := by
  simp only [sendValue]
  split
  · simp
  · split
    · simp [Handled.giveUp]
    · split <;> simp [Handled.giveUp]

end Endings

theorem evaluate_cases (w : ExecutionWorker) (fuel : Nat) (source : Json) :
    ∃ w', (∃ line, w.evaluate fuel source = .say w' ("Result: " ++ line)) ∨
      w.evaluate fuel source = .giveUp w' ∨ w.evaluate fuel source = .breakOff w' := by
  have hlead (w' : ExecutionWorker) (f : Script.Failure) :
      (∃ line, sayFailure w' "Result: Error: " f = .say w' ("Result: " ++ line)) ∨
        sayFailure w' "Result: Error: " f = .giveUp w' ∨
        sayFailure w' "Result: Error: " f = .breakOff w' := by
    refine (sayFailure_cases w' _ f).imp_left ?_
    rintro ⟨line, h⟩
    exact ⟨"Error: " ++ line,
      h.trans (congrArg (Handled.say w') (Points.ofString_append_append (by rfl) line))⟩
  simp only [evaluate]
  split
  · exact ⟨_, hlead _ _⟩
  · split
    · exact ⟨_, (sayText_cases _ _ _).imp_right .inl⟩
    · exact ⟨_, hlead _ _⟩

theorem build_cases (w : ExecutionWorker) (fuel : Nat) :
    ∃ w', (∃ line, w.build fuel = .say w' ("Build " ++ line)) ∨ w.build fuel = .giveUp w' ∨
      w.build fuel = .breakOff w' := by
  simp only [build]
  split
  · rename_i v m _
    refine ⟨_, (sayText_cases _ _ _).imp ?_ .inl⟩
    rintro ⟨line, h⟩
    exact ⟨"result: " ++ line,
      h.trans (congrArg (Handled.say _) (Points.ofString_append_append (by rfl) line))⟩
  · refine ⟨_, (sayFailure_cases _ _ _).imp_left ?_⟩
    rintro ⟨line, h⟩
    exact ⟨"error: " ++ line,
      h.trans (congrArg (Handled.say _) (Points.ofString_append_append (by rfl) line))⟩

/-- A call ends with a value that is sent, with the text of an error, is given up, or breaks the
worker off. -/
theorem callWith_cases (w : ExecutionWorker) (fuel : Nat) (name : Json)
    (given : List Script.Given) :
    ∃ w', (∃ v, w.callWith fuel name given = { worker := w', messages := [.json v] }) ∨
      (∃ line, w.callWith fuel name given = .say w' ("Error: " ++ line)) ∨
      w.callWith fuel name given = .giveUp w' ∨ w.callWith fuel name given = .breakOff w' := by
  simp only [callWith]
  split
  · simp only [sendValue]
    split
    · exact ⟨_, .inl ⟨_, rfl⟩⟩
    · split
      · exact ⟨_, .inr (.inr (.inl rfl))⟩
      · split
        · exact ⟨_, .inl ⟨_, rfl⟩⟩
        · exact ⟨_, .inr (.inr (.inl rfl))⟩
  · exact ⟨_, .inr (sayFailure_cases _ _ _)⟩

/-- A call is answered by its warnings and one message behind them, unless it breaks the worker
off. -/
theorem evaluateFunction_cases (w : ExecutionWorker) (fuel : Nat) (cache : BlockCache Value)
    (name : Json) (args : Arguments) :
    ∃ dropped : List (Nat × String), dropped.Pairwise (·.1 < ·.1) ∧
      let h := w.evaluateFunction fuel cache name args
      (∃ v, h.ending = .done ∧ h.messages = dropped.map (warning name) ++ [.json v]) ∨
      (∃ line, h.ending = .done ∧
        h.messages = dropped.map (warning name) ++ [.text (.str ("Error: " ++ line))]) ∨
      (h.ending ≠ .done ∧ h.messages = dropped.map (warning name)) := by
  simp only [evaluateFunction]
  split
  · exact ⟨[], .nil, .inr (.inr ⟨by simp [Handled.giveUp], rfl⟩)⟩
  · rename_i items _
    obtain ⟨dropped, hmessages, hordered, -⟩ := readArguments_warnings cache name 0 items
    refine ⟨dropped, hordered, ?_⟩
    cases hread : readArguments cache name 0 items with | mk given more =>
    simp only [hread] at hmessages
    cases given with
    | error => exact .inr (.inr ⟨by simp [Handled.giveUp], by simp [Handled.giveUp, hmessages]⟩)
    | ok given =>
        obtain ⟨w', ⟨v, h⟩ | ⟨line, h⟩ | h | h⟩ := w.callWith_cases fuel name given
        · exact .inl ⟨v, by simp [h], by simp [h, hmessages]⟩
        · exact .inr (.inl ⟨line, by simp [h, Handled.say], by simp [h, Handled.say, hmessages]⟩)
        · exact .inr (.inr ⟨by simp [h, Handled.giveUp], by simp [h, Handled.giveUp, hmessages]⟩)
        · exact .inr (.inr ⟨by simp [h, Handled.breakOff],
            by simp [h, Handled.breakOff, hmessages]⟩)

variable {fuel : Nat} {cache : BlockCache Value} {w : ExecutionWorker}

/-- Of what a request asks, only a script breaks the worker off. -/
theorem ending_handle_eq_broken {request : Message Value} :
    (w.handle fuel cache request).ending = .broken ↔ w.Interrupts fuel cache request := by
  cases request with
  | evaluate source =>
      simp only [handle, evaluate, Interrupts]
      cases hsource : compileSource source with
      | error f =>
          have hcompiled : ∀ kind, f ≠ .escaped kind := by
            rintro kind rfl
            unfold compileSource at hsource
            split at hsource
            · split at hsource <;> cases hsource
            · cases hsource
          simp [hcompiled]
      | ok unit =>
          cases heval : w.machine.evalUnit fuel (w.unit ++ unit) with | mk result m =>
          cases result <;> simp [heval]
  | evaluateFunction name args =>
      simp only [handle, evaluateFunction, Interrupts]
      cases hargs : argumentsOf args with
      | error f => simp [Handled.giveUp]
      | ok items =>
          cases hread : readArguments cache name 0 items with | mk given more =>
          cases given with
          | error => simp [hread, Handled.giveUp]
          | ok given =>
              cases hcall : w.machine.callFunction fuel w.unit name given with | mk result m =>
              cases result <;> simp [hread, callWith, hcall]
  | resetScope clearScope clearUnit => simp [handle, reset, Interrupts]
  | build =>
      simp only [handle, build, Interrupts]
      cases heval : w.machine.evalSource fuel buildSource with | mk result m =>
      cases result <;> simp
  | runRange _ | fetchBlock _ | text _ | json _ | blockCacheUpdated _ _ | cleared | shutdown
  | cacheRef _ | other _ => simp [handle, Handled.giveUp, Interrupts]

/-- A request breaks the worker off where its script does, or where it cannot be reported. -/
theorem ending_step_eq_broken {request : Message Value} :
    (step fuel cache w request).ending = .broken ↔ w.Breaks fuel cache request := by
  rw [step, Handled.ending_reported_eq_broken, ending_handle_eq_broken]
  rfl

/-- A request that was given up is refused if it can be reported. -/
theorem messages_step (fuel : Nat) (cache : BlockCache Value) (w : ExecutionWorker)
    (request : Message Value) :
    (step fuel cache w request).messages = (w.handle fuel cache request).messages ++
      if (w.handle fuel cache request).ending = .undone ∧
          request.isTooDeep (w.handle fuel cache request).worker.machine.store = false
        then [refusal request] else [] := by
  rw [step, Handled.messages_reported]
  rfl

/-- Whatever state the worker is in, a request has an answer unless it breaks the worker off. -/
theorem step_answers {request : Message Value} (h : ¬w.Breaks fuel cache request) :
    Answers request (step fuel cache w request).messages := by
  obtain ⟨hkept, hreported⟩ := not_or.mp h
  rw [← ending_handle_eq_broken] at hkept
  have hmessages := messages_step fuel cache w request
  have hrefused (hundone : (w.handle fuel cache request).ending = .undone) :
      (step fuel cache w request).messages =
        (w.handle fuel cache request).messages ++ [refusal request] := by
    rw [hmessages, if_pos ⟨hundone, Bool.eq_false_iff.mpr fun h => hreported ⟨hundone, h⟩⟩]
  have hsaid (hdone : (w.handle fuel cache request).ending = .done) :
      (step fuel cache w request).messages = (w.handle fuel cache request).messages := by
    simpa [hdone] using hmessages
  cases request with
  | evaluate source =>
      obtain ⟨w', ⟨line, h⟩ | h | h⟩ := w.evaluate_cases fuel source
      · simpa [handle, h, hsaid, Handled.say] using .evaluated source line
      · simpa [handle, h, hrefused, Handled.giveUp] using .notEvaluated source
      · exact absurd (by simp [handle, h, Handled.breakOff]) hkept
  | evaluateFunction name args =>
      obtain ⟨dropped, hordered, ⟨v, hdone, h⟩ | ⟨line, hdone, h⟩ | ⟨hdone, h⟩⟩ :=
        w.evaluateFunction_cases fuel cache name args
      · rw [hsaid hdone, handle, h]
        exact .returned name args dropped v hordered
      · rw [hsaid hdone, handle, h]
        exact .failed name args dropped line hordered
      · have hundone : (w.handle fuel cache (.evaluateFunction name args)).ending = .undone := by
          cases hending : (w.handle fuel cache (.evaluateFunction name args)).ending with
          | done => exact absurd hending hdone
          | undone => rfl
          | broken => exact absurd hending hkept
        rw [hrefused hundone, handle, h, refusal_evaluateFunction]
        exact .failed name args dropped _ hordered
  | resetScope clearScope clearUnit =>
      simpa [handle, reset, hsaid] using .reset clearScope clearUnit
  | build =>
      obtain ⟨w', ⟨line, h⟩ | h | h⟩ := w.build_cases fuel
      · simpa [handle, h, hsaid, Handled.say] using .built line
      · simpa [handle, h, hrefused, Handled.giveUp] using .notBuilt
      · exact absurd (by simp [handle, h, Handled.breakOff]) hkept
  | runRange _ | fetchBlock _ | text _ | json _ | blockCacheUpdated _ _ | cleared | shutdown
  | cacheRef _ | other _ =>
      rw [hrefused rfl]
      exact .unknown _ rfl

/-- A request that breaks the worker off is left open: at most warnings are said. -/
theorem step_leavesOpen {request : Message Value} (h : w.Breaks fuel cache request) :
    LeavesOpen request (step fuel cache w request).messages := by
  have hnotDone : (w.handle fuel cache request).ending ≠ .done := by
    intro hdone
    obtain hinterrupts | hreported := h
    · simp [ending_handle_eq_broken.mpr hinterrupts] at hdone
    · simp [hreported.1] at hdone
  have hmessages : (step fuel cache w request).messages =
      (w.handle fuel cache request).messages := by
    rw [messages_step, if_neg, List.append_nil]
    rintro ⟨hundone, hshallow⟩
    obtain hinterrupts | hreported := h
    · simp [ending_handle_eq_broken.mpr hinterrupts] at hundone
    · simp [hreported.2] at hshallow
  rw [hmessages]
  cases request with
  | evaluate source =>
      obtain ⟨w', ⟨line, h⟩ | h | h⟩ := w.evaluate_cases fuel source
      · exact absurd (by simp [handle, h, Handled.say]) hnotDone
      all_goals simpa [handle, h, Handled.giveUp, Handled.breakOff] using .silent _
  | evaluateFunction name args =>
      obtain ⟨dropped, hordered, ⟨v, hdone, -⟩ | ⟨line, hdone, -⟩ | ⟨-, h⟩⟩ :=
        w.evaluateFunction_cases fuel cache name args
      · exact absurd hdone hnotDone
      · exact absurd hdone hnotDone
      · rw [handle, h]
        exact .warned name args dropped hordered
  | resetScope clearScope clearUnit => exact absurd rfl hnotDone
  | build =>
      obtain ⟨w', ⟨line, h⟩ | h | h⟩ := w.build_cases fuel
      · exact absurd (by simp [handle, h, Handled.say]) hnotDone
      all_goals simpa [handle, h, Handled.giveUp, Handled.breakOff] using .silent _
  | runRange _ | fetchBlock _ | text _ | json _ | blockCacheUpdated _ _ | cleared | shutdown
  | cacheRef _ | other _ => exact .silent _

/-- Requests of which none breaks the worker off have their answers, in their order. -/
theorem answers_of_lasts {requests : List (Message Value)}
    (h : Handled.Lasts (step fuel cache) w requests) :
    List.Forall₂ Answers requests
      ((Handled.transcript (step fuel cache) w requests).map (·.messages)) := by
  induction requests generalizing w with
  | nil => exact .nil
  | cons request requests ih =>
      obtain ⟨hkept, hlasts⟩ := Handled.lasts_cons.mp h
      exact .cons (step_answers (mt ending_step_eq_broken.mpr hkept)) (ih hlasts)

/-- A run up to a shutdown says one answer to each request before it, in their order and each in
the state that the one before it left, and ends because of the shutdown, exactly if none of these
requests breaks the worker off: if none runs a script that raises an error which escapes, and none is
given up that is nested too deep. The first one that does ends the run. It is left open, and what
stands behind it is not taken up. -/
theorem run_answers_iff (fuel : Nat) (cache : BlockCache Value) (w : ExecutionWorker)
    (requests rest : List (Message Value))
    (h : ∀ request ∈ requests, request.isShutdown = false) :
    let Breaking (before : List (Message Value)) (request : Message Value) : Prop :=
      (Handled.after (step fuel cache) w before).Breaks fuel cache request
    ((∃ answers worker records, List.Forall₂ Answers requests answers ∧
        run fuel cache w (requests ++ .shutdown :: rest) =
          ({ worker, messages := answers.flatten, records, ending := .done }, rest)) ↔
      ∀ before request behind, requests = before ++ request :: behind →
        ¬Breaking before request) ∧
    ∀ before request behind, requests = before ++ request :: behind →
      (∀ earlier next later, before = earlier ++ next :: later → ¬Breaking earlier next) →
      Breaking before request →
      ∃ answers last worker records, List.Forall₂ Answers before answers ∧
        LeavesOpen request last ∧
        run fuel cache w (requests ++ .shutdown :: rest) =
          ({ worker, messages := answers.flatten ++ last, records, ending := .broken },
            behind ++ .shutdown :: rest) := by
  intro Breaking
  have hlasts {before : List (Message Value)} : Handled.Lasts (step fuel cache) w before ↔
      ∀ earlier next later, before = earlier ++ next :: later → ¬Breaking earlier next := by
    simp only [Handled.lasts_iff, ne_eq, ending_step_eq_broken, Breaking]
  have hbroken {before : List (Message Value)} {request : Message Value}
      {behind : List (Message Value)} (hrequests : requests = before ++ request :: behind)
      (hbefore : Handled.Lasts (step fuel cache) w before) (hbreaks : Breaking before request) :
      ∃ answers last worker records, List.Forall₂ Answers before answers ∧
        LeavesOpen request last ∧
        run fuel cache w (requests ++ .shutdown :: rest) =
          ({ worker, messages := answers.flatten ++ last, records, ending := .broken },
            behind ++ .shutdown :: rest) := by
    subst hrequests
    have hending := ending_step_eq_broken.mpr hbreaks
    have hrun := Handled.run_broken (fun r hr => h r (List.mem_append_left _ hr)) hbefore
      (h request (by simp)) hending (behind ++ .shutdown :: rest)
    rw [← List.cons_append, ← List.append_assoc] at hrun
    exact ⟨_, _, (step fuel cache _ request).worker, _, answers_of_lasts hbefore,
      step_leavesOpen hbreaks, by rw [run, hrun, hending, List.flatMap_def]⟩
  refine ⟨⟨?_, fun hkept => ?_⟩, fun before request behind hrequests hbefore hbreaks =>
    hbroken hrequests (hlasts.mpr hbefore) hbreaks⟩
  · rintro ⟨answers, worker, records, -, hrun⟩
    refine hlasts.mp ?_
    obtain hall | ⟨before, request, behind, hrequests, hbefore, hends⟩ :=
      Handled.lasts_or_broken (step fuel cache) w requests
    · exact hall
    · obtain ⟨_, _, _, _, -, -, hstopped⟩ :=
        hbroken hrequests hbefore (ending_step_eq_broken.mp hends)
      simp [hrun] at hstopped
  · have hall := hlasts.mpr hkept
    exact ⟨_, _, _, answers_of_lasts hall, by
      rw [run, Handled.run_shutdown h hall, List.flatMap_def]⟩

/-- A script that asks to exit, a call with an argument that is no JSON, and an object that is no
request. -/
def unwelcomeRequests : List (Message Value) := [
  .evaluate (.str "raise SystemExit"),
  .evaluateFunction (.str "f") (.listed [.given (.str "?")]), .other .null]

theorem run_answers_unwelcome :
    (∀ request ∈ unwelcomeRequests, request.isShutdown = false) ∧
      ∃ answers worker records, List.Forall₂ Answers unwelcomeRequests answers ∧
        run 1000 (.empty .none) {} (unwelcomeRequests ++ .shutdown :: [.build]) =
          ({ worker, messages := answers.flatten, records, ending := .done }, [.build]) := by
  have hrequests : ∀ request ∈ unwelcomeRequests, request.isShutdown = false := by
    simp [unwelcomeRequests, Message.isShutdown]
  have hcompile : compileSource (.str "raise SystemExit") =
      .ok [.raise (some (.name "SystemExit"))] :=
    Script.compileSource_str (Script.compile_of_tokens
      [.keyword "raise", .name "SystemExit", .newline] (by decide) rfl rfl rfl)
  have hlasts : Handled.Lasts (step 1000 (.empty .none)) {} unwelcomeRequests := by
    simp only [unwelcomeRequests, Handled.lasts_cons, step, handle, evaluate, hcompile]
    refine ⟨by decide +kernel, by decide +kernel, by decide +kernel, ?_⟩
    simp [Handled.Lasts, Handled.transcript]
  refine ⟨hrequests, (run_answers_iff 1000 (.empty .none) {} unwelcomeRequests [.build]
    hrequests).1.mpr ?_⟩
  simpa only [Handled.lasts_iff, ne_eq, ending_step_eq_broken] using hlasts

/-- An object that is no request and nested too deep breaks the worker off without a word. -/
theorem run_other_tooDeep {v : Json} (h : v.isTooDeep = true) (rest : List (Message Value)) :
    run fuel cache w (.other v :: rest) = ({ worker := w, ending := .broken }, rest) := by
  have hdeep : (.other v : Message Value).isTooDeep w.machine.store = true := by
    simp [Message.isTooDeep, Message.parts, h]
  simp [run, Handled.run, Message.isShutdown, step, handle, Handled.giveUp, Handled.reported,
    Message.failureRecord?, hdeep]

/-- A script that raises an error which is no exception, and an object that is no request and is
nested too deep to be reported, are left without an answer, and so is every request behind them. -/
theorem interrupt_ends_run :
    (∃ worker, run 1000 (.empty .none) {}
        [.evaluate (.str "raise KeyboardInterrupt"), .evaluate (.str "1 + 1"), .shutdown] =
      ({ worker, ending := .broken }, [.evaluate (.str "1 + 1"), .shutdown])) ∧
    ∃ worker, run 1000 (.empty .none) {}
        [.other (Json.nested 5000), .evaluate (.str "1 + 1"), .shutdown] =
      ({ worker, ending := .broken }, [.evaluate (.str "1 + 1"), .shutdown]) := by
  have hcompile : compileSource (.str "raise KeyboardInterrupt") =
      .ok [.raise (some (.name "KeyboardInterrupt"))] :=
    Script.compileSource_str (Script.compile_of_tokens
      [.keyword "raise", .name "KeyboardInterrupt", .newline] (by decide) rfl rfl rfl)
  have hinterrupt : ∃ worker, step 1000 (.empty .none) {}
      (.evaluate (.str "raise KeyboardInterrupt")) = { worker, ending := .broken } := by
    simp only [step, handle, evaluate, hcompile]
    exact ⟨_, rfl⟩
  obtain ⟨worker, hstep⟩ := hinterrupt
  refine ⟨⟨worker, by simp [run, Handled.run, Message.isShutdown, hstep]⟩, {}, ?_⟩
  exact run_other_tooDeep (Json.isTooDeep_nested (by decide)) _

end ExecutionWorker

end BlockWorkbench
