import BlockWorkbench.Proofs.Worker.Answering

/-!
The unit that a worker accumulates. It is made of the statements of those scripts that compiled and
did not fail behind the unit of their time, in order, since the unit was last cleared; no other
request touches it.
-/

namespace BlockWorkbench

namespace Message

variable {α : Type}

/-- Whether a message asks to clear the unit. -/
def clearsUnit : Message α → Bool
  | resetScope _ clearUnit => clearUnit.isTruthy
  | _ => false

end Message

namespace ExecutionWorker

open Script (Value Program compileSource)

/-- The statements that a request adds to the unit: those of a source that compiles and whose
evaluation behind the unit does not fail. -/
def addition (fuel : Nat) (w : ExecutionWorker) : Message Value → Program
  | .evaluate source =>
    match compileSource source with
    | .ok statements =>
      match (w.machine.evalUnit fuel (w.unit ++ statements)).1 with
      | .ok _ => statements
      | .error _ => []
    | .error _ => []
  | _ => []

/-- What requests add to the unit, each in the state that the one before it left. -/
def additions (fuel : Nat) (cache : BlockCache Value) (w : ExecutionWorker) :
    List (Message Value) → List Program
  | [] => []
  | request :: rest =>
    addition fuel w request :: additions fuel cache (step fuel cache w request).worker rest

variable (fuel : Nat) (cache : BlockCache Value) (w : ExecutionWorker)

/-- Reporting a request that was given up changes no state. -/
theorem worker_step (request : Message Value) :
    (step fuel cache w request).worker = (w.handle fuel cache request).worker := by
  simp only [step, Handled.worker_reported]

@[simp]
theorem worker_sayText (lead : String) (text : Except Script.RuntimeFault Points) :
    (sayText w lead text).worker = w := by
  cases text <;> rfl

@[simp]
theorem worker_sayFailure (lead : String) (f : Script.Failure) :
    (sayFailure w lead f).worker = w := by
  cases f <;> rfl

/-- A source that does not compile changes nothing at all. -/
theorem worker_evaluate_error {source : Json}
    (h : ∀ statements, compileSource source ≠ .ok statements) :
    (w.evaluate fuel source).worker = w := by
  simp only [evaluate]
  split
  · exact worker_sayFailure w _ _
  · exact absurd ‹_› (h _)

theorem unit_evaluate (source : Json) :
    (w.evaluate fuel source).worker.unit = w.unit ++ addition fuel w (.evaluate source) := by
  simp only [evaluate, addition]
  cases hcompile : compileSource source with
  | error f => simp
  | ok statements =>
      cases heval : w.machine.evalUnit fuel (w.unit ++ statements) with | mk value m =>
      cases value with
      | ok v => simp [heval]
      | error f => simp [heval]

@[simp]
theorem worker_sendValue (v : Value) : (w.sendValue v).worker = w := by
  simp only [sendValue]
  split
  · rfl
  · split
    · rfl
    · split <;> rfl

theorem unit_callWith (name : Json) (given : List Script.Given) :
    (w.callWith fuel name given).worker.unit = w.unit := by
  simp only [callWith]
  split
  · rw [worker_sendValue]
  · rw [worker_sayFailure]

theorem unit_evaluateFunction (name : Json) (args : Arguments) :
    (w.evaluateFunction fuel cache name args).worker.unit = w.unit := by
  simp only [evaluateFunction]
  split
  · rfl
  · split
    · exact unit_callWith fuel w name _
    · rfl

theorem unit_build : (w.build fuel).worker.unit = w.unit := by
  simp only [build]
  split
  · rw [worker_sayText]
  · rw [worker_sayFailure]

/-- One request: the unit is cleared, or what the request adds stands behind it. -/
theorem unit_step (request : Message Value) :
    (step fuel cache w request).worker.unit =
      if request.clearsUnit then [] else w.unit ++ addition fuel w request := by
  rw [worker_step]
  cases request with
  | evaluate source => simpa [handle, Message.clearsUnit] using unit_evaluate fuel w source
  | evaluateFunction name args =>
      simpa [handle, Message.clearsUnit, addition] using unit_evaluateFunction fuel cache w name args
  | resetScope clearScope clearUnit =>
      cases h : clearUnit.isTruthy <;> simp [handle, reset, Message.clearsUnit, addition, h]
  | build => simpa [handle, Message.clearsUnit, addition] using unit_build fuel w
  | runRange _ | fetchBlock _ | text _ | json _ | blockCacheUpdated _ _ | cleared | shutdown
  | cacheRef _ | other _ => simp [handle, Message.clearsUnit, addition, Handled.giveUp]

/-- Requests that do not clear the unit put what they add behind it. -/
theorem unit_after {requests : List (Message Value)}
    (h : ∀ request ∈ requests, request.clearsUnit = false) :
    (Handled.after (step fuel cache) w requests).unit =
      w.unit ++ (additions fuel cache w requests).flatten := by
  induction requests generalizing w with
  | nil => simp [Handled.after, additions]
  | cons request rest ih =>
      have hstep := unit_step fuel cache w request
      rw [if_neg (by simp [h request List.mem_cons_self])] at hstep
      have hrest := ih (step fuel cache w request).worker fun r hr =>
        h r (List.mem_cons_of_mem request hr)
      rw [hstep] at hrest
      simpa [Handled.after, additions] using hrest

/-- Right after the unit was cleared, and at the start, it is empty. -/
theorem unit_after_clear (requests : List (Message Value)) :
    (Handled.after (step fuel cache) {}
      (requests.rdropWhile fun request => !request.clearsUnit)).unit = [] := by
  obtain hnil | hne := eq_or_ne (requests.rdropWhile fun request => !request.clearsUnit) []
  · rw [hnil]
    rfl
  · have hlast := List.rdropWhile_last_not (fun request => !request.clearsUnit) requests hne
    rw [← List.dropLast_append_getLast hne, Handled.after, List.foldl_append]
    simp only [List.foldl_cons, List.foldl_nil, unit_step]
    rw [if_pos (by simpa using hlast)]

/-- After any requests to a fresh worker its unit holds, in order, the statements of the scripts
that compiled and did not fail since the unit was last cleared. Calls, builds, scripts that fail
and resets that spare the unit leave it as it is, and a source that does not compile changes
neither unit nor scope nor registry. -/
theorem unit_is_what_succeeded (fuel : Nat) (cache : BlockCache Value) :
    (∀ requests : List (Message Value),
      (Handled.after (step fuel cache) {} requests).unit =
        (additions fuel cache
          (Handled.after (step fuel cache) {}
            (requests.rdropWhile fun request => !request.clearsUnit))
          (requests.rtakeWhile fun request => !request.clearsUnit)).flatten) ∧
    ∀ w : ExecutionWorker,
      (∀ name args, (step fuel cache w (.evaluateFunction name args)).worker.unit = w.unit) ∧
      (step fuel cache w .build).worker.unit = w.unit ∧
      (∀ clearScope clearUnit, clearUnit.isTruthy = false →
        (step fuel cache w (.resetScope clearScope clearUnit)).worker.unit = w.unit) ∧
      (∀ source statements f m, compileSource source = .ok statements →
        w.machine.evalUnit fuel (w.unit ++ statements) = (.error f, m) →
        (step fuel cache w (.evaluate source)).worker.unit = w.unit) ∧
      ∀ source, (∀ statements, compileSource source ≠ .ok statements) →
        (step fuel cache w (.evaluate source)).worker = w := by
  refine ⟨fun requests => ?_, fun w => ⟨fun name args => ?_, ?_, ?_, ?_, ?_⟩⟩
  · have hkept : requests.rdropWhile (fun request => !request.clearsUnit) ++
        requests.rtakeWhile (fun request => !request.clearsUnit) = requests :=
      List.rdropWhile_append_rtakeWhile
    have hclear := unit_after_clear fuel cache requests
    conv_lhs => rw [← hkept, Handled.after, List.foldl_append]
    rw [← Handled.after, ← Handled.after, unit_after, hclear, List.nil_append]
    exact fun request hr => by simpa using List.mem_rtakeWhile_imp hr
  · rw [worker_step]
    exact unit_evaluateFunction fuel cache w name args
  · rw [worker_step]
    exact unit_build fuel w
  · intro clearScope clearUnit h
    simp [unit_step, Message.clearsUnit, addition, h]
  · intro source statements f m hcompile heval
    simp [unit_step, Message.clearsUnit, addition, hcompile, heval]
  · intro source h
    rw [worker_step]
    exact worker_evaluate_error fuel w h

end ExecutionWorker

end BlockWorkbench
