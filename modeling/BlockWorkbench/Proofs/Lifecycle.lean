import BlockWorkbench.Api
import BlockWorkbench.Proofs.Worker.Answering

/-!
Which session clients meet. A new session takes the place of the present one, which is stopped
before the new configuration is looked at. So a configuration that cannot be applied leaves clients
with a session that has stopped, where a shutdown would have left them with none.
-/

namespace BlockWorkbench

/-- Behind a run with a shutdown among its requests the worker is through. -/
theorem Handled.isOver_run {α ω : Type} {step : ω → Message α → Handled α ω} (w : ω)
    {requests : List (Message α)} (h : requests.any (·.isShutdown)) :
    (run step w requests).1.isOver = true := by
  induction requests generalizing w with
  | nil => cases h
  | cons request rest ih =>
      cases hrequest : request.isShutdown with
      | true => simp [run, hrequest, isOver]
      | false =>
          have hrest : rest.any (·.isShutdown) := by simpa [hrequest] using h
          by_cases hbroken : (step w request).ending = .broken
          · simp [run, hrequest, hbroken, isOver]
          · simpa [run, hrequest, hbroken, followedBy, isOver] using ih (step w request).worker hrest

namespace Editor

/-- A session that was started, and no part of which was told to stop. -/
def Running (e : Editor) : Prop := e.activity = { started := true }

/-- A session that was started, and each part of which has stopped. -/
def Stopped (e : Editor) : Prop :=
  e.activity = {
    started := true, ownerStopped := true, executionStopped := true, streamingStopped := true }

theorem Running.not_stopped {e : Editor} (h : e.Running) : ¬e.Stopped := by
  unfold Running at h
  simp [Stopped, h]

/-- Whatever waits for the workers, a shutdown behind it stops them if they were ever started. -/
theorem activity_stop (e : Editor) :
    e.stop.editor.activity = { e.activity with
      ownerStopped := true
      executionStopped := e.activity.executionStopped || e.activity.started
      streamingStopped := e.activity.streamingStopped || e.activity.started } := by
  obtain ⟨_, _, _, _, _, _, _, started, _, executionStopped, streamingStopped⟩ := e
  cases started <;> cases executionStopped <;> cases streamingStopped <;>
    simp [stop, settle, settleExecution, settleStreaming, withStore, Activity.executionAlive,
      Activity.streamingAlive, Bus.publishAll, Bus.sendExecution, Bus.sendStreaming,
      ExecutionWorker.run, StreamingWorker.run, Handled.isOver_run, Message.isShutdown]

/-- A session that was started is stopped as a whole, once or again. -/
theorem stopped_stop {e : Editor} (h : e.Running ∨ e.Stopped) : e.stop.editor.Stopped := by
  have hstarted : e.activity.started = true :=
    h.elim (congrArg Activity.started) (congrArg Activity.started)
  simp [Stopped, activity_stop, hstarted]

end Editor

namespace Settings

/-- Whether a configuration can be applied. -/
def Usable (environment : Environment) (configuration : Json) : Prop :=
  ∃ settings, (apply environment (some configuration) none {}).1 = .ok settings

/-- What a configuration comes to does not depend on the journal. -/
theorem apply_journal (environment : Environment) (configuration overrides : Option Json)
    (journal journal' : Journal) :
    (apply environment configuration overrides journal).1 =
      (apply environment configuration overrides journal').1 := by
  unfold apply
  cases combine configuration overrides with
  | error f => rfl
  | ok fields =>
      cases htruthy : (valueOf fields "log_level").isTruthy with
      | false => simp [levelOf, htruthy]
      | true =>
          simp only [levelOf, htruthy, if_true]
          cases parseLevel (valueOf fields "log_level") <;> rfl

theorem usable_defaults (environment : Environment) : Usable environment (.object defaults) :=
  ⟨_, rfl⟩

end Settings

namespace Api

/-- The calls that make sessions and put an end to them. -/
inductive SessionCall where
  | begin (configuration : Option Json)
  | shutdown

def carryOut (api : Api) : SessionCall → Except Fault Unit × Api
  | .begin configuration => api.begin configuration
  | .shutdown => (.ok (), api.shutdown)

/-- What calls leave, whether they succeed or not. -/
def after (api : Api) (calls : List SessionCall) : Api :=
  calls.foldl (fun api call => (api.carryOut call).2) api

/-- The session that clients meet, if any, is at work. -/
def Sound (api : Api) : Prop := ∀ e, api.editor = some e → e.Running

theorem begin_none (api : Api) : api.begin none = api.begin (some (.object Settings.defaults)) := by
  have hload : Settings.loadConfiguration (.str "config") true = .ok Settings.defaults := by
    unfold Settings.loadConfiguration
    cases Settings.checkConfiguration (Json.str "config").plain <;> rfl
  simp only [begin, hload]
  rfl

theorem editor_stopSession (api : Api) :
    api.stopSession.editor = api.editor.map (·.stop.editor) := by
  cases h : api.editor <;> simp [stopSession, h]

theorem environment_stopSession (api : Api) : api.stopSession.environment = api.environment := by
  cases h : api.editor <;> simp [stopSession, h]

theorem install_newSession (api : Api) (settings : Settings) :
    (api.install (api.newSession settings)).1 = .ok () ∧
      ∃ e, (api.install (api.newSession settings)).2.editor = some e ∧ e.Running :=
  ⟨rfl, _, rfl, rfl⟩

/-- A configuration that can be applied makes a session. Another one makes none, and the present
one has been stopped. -/
theorem begin_cases (api : Api) (configuration : Json) :
    (Settings.Usable api.environment configuration ∧ (api.begin (some configuration)).1 = .ok () ∧
      ∃ e, (api.begin (some configuration)).2.editor = some e ∧ e.Running) ∨
    ¬Settings.Usable api.environment configuration ∧
      (∃ f, (api.begin (some configuration)).1 = .error f) ∧
      (api.begin (some configuration)).2.editor = api.editor.map (·.stop.editor) := by
  -- to stop a session may add to the journal, but changes nothing else that settings depend on
  have hjournal := Settings.apply_journal api.environment (some configuration) none {}
    api.stopSession.journal
  cases hsettings : Settings.apply api.environment (some configuration) none
    api.stopSession.journal with
  | mk settings journal =>
  rw [hsettings] at hjournal
  cases settings with
  | ok settings =>
      refine .inl ⟨⟨settings, hjournal⟩, ?_⟩
      have hbegin : api.begin (some configuration) = install { api.stopSession with journal }
          (newSession { api.stopSession with journal } settings) := by
        simp [begin, environment_stopSession, hsettings]
      rw [hbegin]
      exact install_newSession _ settings
  | error f =>
      refine .inr ⟨?_, ?_⟩
      · rintro ⟨settings, h⟩
        cases hjournal.symm.trans h
      · simp [begin, environment_stopSession, hsettings, editor_stopSession]

/-- What a call comes to, its result and the session behind it, given the session before it. A call
that fails makes no session, but has stopped the one before. -/
inductive Outcome (environment : Settings.Environment) (before : Option Editor) :
    SessionCall → Except Fault Unit → Option Editor → Prop
  | shutdown : Outcome environment before .shutdown (.ok ()) none
  | begun {given : Option Json} {e : Editor}
      (husable : ∀ configuration, given = some configuration →
        Settings.Usable environment configuration)
      (he : e.Running) : Outcome environment before (.begin given) (.ok ()) (some e)
  | refused {configuration : Json} {f : Fault}
      (hnot : ¬Settings.Usable environment configuration) (hbefore : before = none) :
      Outcome environment before (.begin (some configuration)) (.error f) none
  | stopped {configuration : Json} {f : Fault} {e : Editor}
      (hnot : ¬Settings.Usable environment configuration) (hbefore : before ≠ none)
      (he : e.Stopped) :
      Outcome environment before (.begin (some configuration)) (.error f) (some e)

theorem carryOut_outcome {api : Api} (h : ∀ e, api.editor = some e → e.Running ∨ e.Stopped)
    (call : SessionCall) :
    Outcome api.environment api.editor call (api.carryOut call).1 (api.carryOut call).2.editor := by
  cases call with
  | shutdown => exact .shutdown
  | begin given =>
      cases given with
      | none =>
          obtain ⟨-, hresult, e, he, hrunning⟩ | ⟨hnot, -⟩ :=
            api.begin_cases (.object Settings.defaults)
          · rw [carryOut, begin_none, hresult, he]
            exact .begun (by simp) hrunning
          · exact absurd (Settings.usable_defaults api.environment) hnot
      | some configuration =>
          obtain ⟨husable, hresult, e, he, hrunning⟩ | ⟨hnot, ⟨f, hf⟩, he⟩ :=
            api.begin_cases configuration
          · rw [carryOut, hresult, he]
            refine .begun ?_ hrunning
            rintro _ ⟨⟩
            exact husable
          · rw [carryOut, hf, he]
            cases heditor : api.editor with
            | none => exact .refused hnot rfl
            | some e => exact .stopped hnot (by simp) (Editor.stopped_stop (h e heditor))

namespace Outcome

variable {environment : Settings.Environment} {before behind : Option Editor} {call : SessionCall}
  {result : Except Fault Unit}

/-- Behind a call clients meet a session that has stopped only if there was one, and another was
asked for with a configuration that is of no use. -/
theorem running_iff (h : Outcome environment before call result behind) :
    (∀ e, behind = some e → e.Running) ↔ ∀ configuration, call = .begin (some configuration) →
      before ≠ none → Settings.Usable environment configuration := by
  cases h with
  | shutdown => simp
  | begun husable he =>
      refine ⟨fun _ configuration hcall _ => husable configuration (by cases hcall; rfl), ?_⟩
      rintro - e' ⟨⟩
      exact he
  | refused hnot hbefore => simp [hbefore]
  | @stopped _ _ e hnot hbefore he =>
      have hnotRunning : ¬e.Running := fun hrunning => hrunning.not_stopped he
      simp [hnotRunning, hbefore, hnot]

theorem running_or_stopped (h : Outcome environment before call result behind) {e : Editor}
    (he : behind = some e) : e.Running ∨ e.Stopped := by
  cases h with
  | shutdown | refused _ _ => cases he
  | begun _ hrunning =>
      cases he
      exact .inl hrunning
  | stopped _ _ hstopped =>
      cases he
      exact .inr hstopped

end Outcome

theorem environment_install (api : Api) (e : Editor) :
    (api.install e).2.environment = api.environment := by
  simp only [install]
  split <;> rfl

theorem environment_carryOut (api : Api) (call : SessionCall) :
    (api.carryOut call).2.environment = api.environment := by
  cases call with
  | shutdown => exact api.environment_stopSession
  | begin given =>
      simp only [carryOut, begin]
      split
      · exact api.environment_stopSession
      · split
        · exact api.environment_stopSession
        · rw [environment_install]
          exact api.environment_stopSession

theorem after_concat (api : Api) (calls : List SessionCall) (call : SessionCall) :
    api.after (calls ++ [call]) = ((api.after calls).carryOut call).2 := by
  simp [after]

theorem environment_after (api : Api) (calls : List SessionCall) :
    (api.after calls).environment = api.environment := by
  induction calls using List.reverseRecOn with
  | nil => rfl
  | append_singleton calls call ih => rw [after_concat, environment_carryOut, ih]

/-- Nothing leaves clients with a session that is only half stopped. -/
theorem running_or_stopped_after {api : Api} (h : api.Sound) (calls : List SessionCall) :
    ∀ e, (api.after calls).editor = some e → e.Running ∨ e.Stopped := by
  induction calls using List.reverseRecOn with
  | nil => exact fun e he => .inl (h e he)
  | append_singleton calls call ih =>
      rw [after_concat]
      exact fun e => (carryOut_outcome ih call).running_or_stopped

theorem outcome_after {api : Api} (h : api.Sound) (calls : List SessionCall) (call : SessionCall) :
    Outcome api.environment (api.after calls).editor call ((api.after calls).carryOut call).1
      (api.after (calls ++ [call])).editor := by
  have houtcome := carryOut_outcome (running_or_stopped_after h calls) call
  rwa [environment_after, ← after_concat] at houtcome

/-- A shutdown leaves clients with no session, and a call for a session with one that is at work if
its configuration can be applied. If it cannot, the call fails, and the session before it, if there
was one, is kept and has stopped. So clients never meet a session that has stopped exactly if no
session is asked for with such a configuration while there is another. -/
theorem session_at_work_iff {api : Api} (h : api.Sound) (calls : List SessionCall) :
    (∀ made call, made ++ [call] <+: calls →
      Outcome api.environment (api.after made).editor call ((api.after made).carryOut call).1
        (api.after (made ++ [call])).editor) ∧
    ((∀ made, made <+: calls → (api.after made).Sound) ↔
      ∀ made configuration, made ++ [.begin (some configuration)] <+: calls →
        (api.after made).editor ≠ none → Settings.Usable api.environment configuration) := by
  refine ⟨fun made call _ => outcome_after h made call, fun hsound made configuration hmade => ?_,
    fun husable made hmade => ?_⟩
  · exact (outcome_after h made _).running_iff.mp (hsound _ hmade) configuration rfl
  · obtain rfl | ⟨made, call, rfl⟩ := List.eq_nil_or_concat' made
    · exact h
    · refine (outcome_after h made call).running_iff.mpr ?_
      rintro configuration rfl
      exact husable made configuration hmade

/-- A configuration whose first block is no number. -/
def unusable : Json := .object [("start_block", .str "bad")]

/-- With no session to be stopped, a configuration that is of no use does no harm. -/
theorem session_at_work_between :
    ({} : Api).Sound ∧ ∀ made, made <+: [.begin none, .shutdown, .begin (some unusable)] →
      (after {} made).Sound := by
  have hsound : ({} : Api).Sound := fun e he => by cases he
  refine ⟨hsound, (session_at_work_iff hsound _).2.mpr ?_⟩
  rintro (_ | ⟨first, _ | ⟨second, _ | ⟨third, rest⟩⟩⟩) configuration ⟨behind, h⟩ hpresent
  · cases h
  · cases h
  · cases h
    exact absurd rfl hpresent
  · simp at h

/-- A session is stopped for the sake of one that cannot be made, and kept. -/
theorem unusable_configuration_keeps_stopped :
    (begin (after {} [.begin (some (.object []))]) (some unusable)).1 =
        .error (.badInteger "bad") ∧
      ∃ e, (after {} [.begin (some (.object [])), .begin (some unusable)]).editor = some e ∧
        e.Stopped ∧ ¬e.Running := by
  refine ⟨rfl, _, rfl, rfl, fun h => ?_⟩
  cases h

end Api

end BlockWorkbench
