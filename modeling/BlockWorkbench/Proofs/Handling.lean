import Mathlib
import BlockWorkbench.Handling
import BlockWorkbench.Message.Transport

/-!
Runs of a worker as sequences of single requests. A run takes up the requests up to a shutdown, in
order and each in the state that the one before it left, unless one of them breaks the worker off:
then nothing behind that one is taken up.
-/

namespace BlockWorkbench

namespace Json

/-- A list in a list and so on, `levels` deep. -/
def nested (levels : Nat) : Json := levels.repeat (fun v => .list [v]) .null

theorem depth_nested (levels : Nat) : (nested levels).depth = levels + 1 := by
  induction levels with
  | zero => rfl
  | succ levels ih =>
      rw [nested, Nat.repeat, ← nested, depth, depthOfItems, depthOfItems, ih, Nat.max_zero]

theorem isTooDeep_nested {levels : Nat} (h : nestingLimit ≤ levels) :
    (nested levels).isTooDeep = true := by
  simpa [isTooDeep, depth_nested] using Nat.lt_succ_of_le h

end Json

namespace Handled

variable {α ω : Type}

/-- What comes of requests, one after another, each dealt with by the worker that the one before
it left. -/
def transcript (step : ω → Message α → Handled α ω) (w : ω) : List (Message α) → List (Handled α ω)
  | [] => []
  | request :: rest => step w request :: transcript step (step w request).worker rest

/-- The worker that requests leave. -/
def after (step : ω → Message α → Handled α ω) (w : ω) (requests : List (Message α)) : ω :=
  requests.foldl (fun w request => (step w request).worker) w

variable (step : ω → Message α → Handled α ω) (w : ω) {requests : List (Message α)}

theorem transcript_append (requests behind : List (Message α)) :
    transcript step w (requests ++ behind) =
      transcript step w requests ++ transcript step (after step w requests) behind := by
  induction requests generalizing w with
  | nil => rfl
  | cons request requests ih => simp [transcript, after, ih]

/-- None of the requests breaks the worker off. -/
def Lasts (requests : List (Message α)) : Prop :=
  ∀ answer ∈ transcript step w requests, answer.ending ≠ .broken

variable {step w}

theorem lasts_cons {request : Message α} :
    Lasts step w (request :: requests) ↔
      (step w request).ending ≠ .broken ∧ Lasts step (step w request).worker requests := by
  simp [Lasts, transcript]

theorem Lasts.of_append {behind : List (Message α)} (h : Lasts step w (requests ++ behind)) :
    Lasts step w requests := by
  intro answer hanswer
  refine h answer ?_
  rw [transcript_append]
  exact List.mem_append_left _ hanswer

/-- Requests that do not all last have a first one that breaks the worker off. -/
theorem lasts_or_broken (step : ω → Message α → Handled α ω) (w : ω)
    (requests : List (Message α)) :
    Lasts step w requests ∨ ∃ before request behind, requests = before ++ request :: behind ∧
      Lasts step w before ∧ (step (after step w before) request).ending = .broken := by
  induction requests generalizing w with
  | nil => exact .inl (by simp [Lasts, transcript])
  | cons request requests ih =>
      by_cases hbroken : (step w request).ending = .broken
      · exact .inr ⟨[], request, requests, rfl, by simp [Lasts, transcript], hbroken⟩
      · obtain hlasts | ⟨before, next, behind, rfl, hlasts, hnext⟩ := ih (step w request).worker
        · exact .inl (lasts_cons.mpr ⟨hbroken, hlasts⟩)
        · exact .inr ⟨request :: before, next, behind, rfl, lasts_cons.mpr ⟨hbroken, hlasts⟩, hnext⟩

theorem lasts_iff : Lasts step w requests ↔ ∀ before request behind,
    requests = before ++ request :: behind →
      (step (after step w before) request).ending ≠ .broken := by
  constructor
  · rintro h before request behind rfl
    refine h _ ?_
    rw [transcript_append]
    exact List.mem_append_right _ List.mem_cons_self
  · intro h
    obtain hlasts | ⟨before, request, behind, hrequests, -, hbroken⟩ :=
      lasts_or_broken step w requests
    · exact hlasts
    · exact absurd hbroken (h before request behind hrequests)

/-- Requests that last are all taken up, and what follows them is taken up behind them. -/
theorem run_append (h : ∀ request ∈ requests, request.isShutdown = false)
    (hlasts : Lasts step w requests) (rest : List (Message α)) :
    run step w (requests ++ rest) =
      let later := run step (after step w requests) rest
      ({ later.1 with
          messages := (transcript step w requests).flatMap (·.messages) ++ later.1.messages
          records := (transcript step w requests).flatMap (·.records) ++ later.1.records },
        later.2) := by
  induction requests generalizing w with
  | nil => rfl
  | cons request requests ih =>
      obtain ⟨hrequest, hrequests⟩ := List.forall_mem_cons.mp h
      obtain ⟨hkept, hlasts⟩ := lasts_cons.mp hlasts
      simp [run, hrequest, hkept, ih hrequests hlasts, after, transcript, followedBy]

/-- A run up to a shutdown ends because of it if the requests before it last. -/
theorem run_shutdown (h : ∀ request ∈ requests, request.isShutdown = false)
    (hlasts : Lasts step w requests) (rest : List (Message α)) :
    run step w (requests ++ .shutdown :: rest) =
      ({ worker := after step w requests
         messages := (transcript step w requests).flatMap (·.messages)
         records := (transcript step w requests).flatMap (·.records) }, rest) := by
  rw [run_append h hlasts]
  simp [run, Message.isShutdown]

/-- A run ends with the first request that breaks the worker off, and takes up none behind it. -/
theorem run_broken {request : Message α} (h : ∀ request ∈ requests, request.isShutdown = false)
    (hlasts : Lasts step w requests) (hrequest : request.isShutdown = false)
    (hbroken : (step (after step w requests) request).ending = .broken)
    (rest : List (Message α)) :
    let last := step (after step w requests) request
    run step w (requests ++ request :: rest) =
      ({ last with
          messages := (transcript step w requests).flatMap (·.messages) ++ last.messages
          records := (transcript step w requests).flatMap (·.records) ++ last.records }, rest) := by
  rw [run_append h hlasts]
  simp [run, hrequest, hbroken]

/-! ### Reports -/

section Reports

variable (h : Handled α ω) (lead : String) (request : Message α) (record? : Option Record)

@[simp]
theorem worker_reported : (h.reported lead request record?).worker = h.worker := by
  unfold reported
  split <;> rfl

end Reports

section Failures

variable (h : Handled Script.Value ω) (lead source words : String) (s : Script.Store)
  (request : Message Script.Value)

/-- A request that was given up is refused if it can be reported. -/
theorem messages_reported :
    (h.reported lead request (request.failureRecord? source words s)).messages = h.messages ++
      if h.ending = .undone ∧ request.isTooDeep s = false then
        [.text (.str (lead ++ "internal failure handling " ++ request.className))]
      else [] := by
  cases hending : h.ending <;> cases hdeep : request.isTooDeep s <;>
    simp [reported, hending, Message.failureRecord?, hdeep]

/-- What breaks a worker off: the request itself, or that it cannot even be reported. -/
theorem ending_reported_eq_broken :
    (h.reported lead request (request.failureRecord? source words s)).ending = .broken ↔
      h.ending = .broken ∨ h.ending = .undone ∧ request.isTooDeep s = true := by
  cases hending : h.ending <;> cases hdeep : request.isTooDeep s <;>
    simp [reported, hending, Message.failureRecord?, hdeep]

end Failures

end Handled

end BlockWorkbench
