import Mathlib
import BlockWorkbench.Editor.Log
import BlockWorkbench.Proofs.Streaming.Delivery
import BlockWorkbench.Proofs.Worker.Answering

/-!
The message log and the schedule of its polls. Every poll takes what was published since the one
before, so that the polled lists make up the published sequence, and the log holds what stands
behind the last clearing in them. When the polls happen makes no difference to the log that the
last one leaves.
-/

namespace BlockWorkbench

namespace Message

variable {α : Type}

/-- Whether a message tells the editor something. -/
def isNotification : Message α → Bool
  | text _ | json _ | blockCacheUpdated .. | cleared => true
  | _ => false

/-- A notification has a form for clients if its value has one. -/
theorem transport_of_isNotification {m : Message α} (h : m.isNotification = true)
    (view : α → Document) : ∃ d, m.transport (fun v => .ok (view v)) = .ok d := by
  cases m with
  | text _ | json _ | blockCacheUpdated _ _ | cleared => exact ⟨_, rfl⟩
  | evaluate _ | evaluateFunction _ _ | resetScope _ _ | build | runRange _ | fetchBlock _
  | shutdown | cacheRef _ | other _ => cases h

end Message

namespace Handled

variable {α ω : Type}

/-- Whether only notifications are said. -/
def Notifies (h : Handled α ω) : Prop := h.messages.all Message.isNotification = true

theorem notifies_giveUp (w : ω) : (giveUp w : Handled α ω).Notifies := rfl

theorem Notifies.reported {h : Handled α ω} (hn : h.Notifies) (lead : String)
    (request : Message α) (record? : Option Record) :
    (h.reported lead request record?).Notifies := by
  unfold Handled.reported
  split
  · simpa [Notifies, Message.isNotification] using hn
  · exact hn
  · exact hn

/-- A worker whose answers are notifications says nothing else in a whole run. -/
theorem notifies_run {step : ω → Message α → Handled α ω}
    (hstep : ∀ w request, (step w request).Notifies) (w : ω) (requests : List (Message α)) :
    (run step w requests).1.Notifies := by
  induction requests generalizing w with
  | nil => exact notifies_giveUp w
  | cons request rest ih =>
      unfold run
      split
      · rfl
      · dsimp only
        split
        · exact hstep w request
        · simp only [Notifies, followedBy, List.all_append, Bool.and_eq_true]
          exact ⟨hstep w request, ih _⟩

end Handled

namespace ExecutionWorker

theorem Answers.notifies {request : Message Script.Value} {messages : List (Message Script.Value)}
    (h : Answers request messages) : messages.all Message.isNotification = true := by
  cases h <;> simp [refusal, warning, Message.isNotification]

theorem LeavesOpen.notifies {request : Message Script.Value}
    {messages : List (Message Script.Value)} (h : LeavesOpen request messages) :
    messages.all Message.isNotification = true := by
  cases h <;> simp [warning, Message.isNotification]

theorem notifies_step (fuel : Nat) (cache : BlockCache Script.Value) (w : ExecutionWorker)
    (request : Message Script.Value) : (step fuel cache w request).Notifies := by
  by_cases h : w.Breaks fuel cache request
  · exact (step_leavesOpen h).notifies
  · exact (step_answers h).notifies

end ExecutionWorker

namespace StreamingWorker

theorem notifies_receive (w : StreamingWorker) (target : Target) (entries : List Stream.Entry) :
    (w.receive target entries).Notifies := by
  induction entries generalizing w with
  | nil => rfl
  | cons entry rest ih =>
      cases entry with
      | failure f =>
          simp only [receive]
          split
          · rfl
          · split <;> rfl
      | record record =>
          simp only [receive]
          split
          · rename_i v _
            have hvalue : (w.deliver target v).1.isNotification = true := by cases target <;> rfl
            simp only [Handled.Notifies, List.all_cons, Bool.and_eq_true]
            exact ⟨hvalue, ih _⟩
          · split
            · rfl
            · exact ih w

theorem notifies_stream (w : StreamingWorker) (target : Target) (r : RangeRequest) :
    (w.stream target r).Notifies := by
  simp only [stream]
  split
  · rfl
  · rfl
  · rfl
  · exact notifies_receive _ target _

theorem notifies_step (w : StreamingWorker) (request : Message Script.Value) :
    (step w request).Notifies := by
  have hhandle : (w.handle request).Notifies := by
    cases request with
    | runRange r => exact w.notifies_stream _ r
    | fetchBlock b =>
        simp only [handle, fetchBlock]
        split
        · split <;> rfl
        · split
          · rfl
          · exact w.notifies_stream _ _
    | evaluate _ | evaluateFunction _ _ | resetScope _ _ | build | text _ | json _
    | blockCacheUpdated _ _ | cleared | shutdown | cacheRef _ | other _ => rfl
  exact hhandle.reported ..

end StreamingWorker

namespace Bus

variable {α : Type}

/-- Takes waiting messages one at a time until none waits, where `arriving` holds what is
published after each taking. Gives what was taken and what waits in the end. -/
def takeAmid (waiting : List (Message α)) :
    List (List (Message α)) → List (Message α) × List (Message α)
  | [] => (waiting, [])
  | batch :: later =>
    match waiting with
    | [] => ([], batch ++ later.flatten)
    | m :: rest =>
      let (taken, left) := takeAmid (rest ++ batch) later
      (m :: taken, left)

/-- What is published meanwhile is taken up to some point, and waits from there on. -/
theorem takeAmid_eq (waiting : List (Message α)) (arriving : List (List (Message α))) :
    ∃ seen unseen, arriving.flatten = seen ++ unseen ∧
      takeAmid waiting arriving = (waiting ++ seen, unseen) := by
  induction arriving generalizing waiting with
  | nil => exact ⟨[], [], rfl, by simp [takeAmid]⟩
  | cons batch later ih =>
      cases waiting with
      | nil => exact ⟨[], batch ++ later.flatten, rfl, rfl⟩
      | cons m rest =>
          obtain ⟨seen, unseen, hflat, htaken⟩ := ih (rest ++ batch)
          refine ⟨batch ++ seen, unseen, by simp [hflat], ?_⟩
          simp [takeAmid, htaken]

end Bus

namespace Editor

open Script (Value)

/-- A message that a worker publishes. -/
abbrev Notice := { m : Message Value // m.isNotification = true }

/-- What happens to the log. -/
inductive Action where
  | publish (notice : Notice)
  | clear
  | poll
  | messages (search : Json Points) (hideEmpty : Bool)

namespace Action

def polls : Action → Bool
  | poll | messages .. => true
  | publish _ | clear => false

/-- What an action puts into the outbound sequence. -/
def published : Action → List (Message Value)
  | publish notice => [notice.1]
  | clear => [.cleared]
  | poll | messages .. => []

end Action

/-- The outbound sequence of a schedule. -/
def published (schedule : List Action) : List (Message Value) := schedule.flatMap Action.published

/-- An editor, and what each poll so far returned. -/
structure Watched where
  editor : Editor
  polled : List (List (Message Value)) := []

namespace Watched

def act (w : Watched) : Action → Watched
  | .publish notice => { w with editor := w.editor.publish notice.1 }
  | .clear => { w with editor := w.editor.clearMessages }
  | .poll => { editor := w.editor.poll.2, polled := w.polled ++ [w.editor.poll.1] }
  | .messages search hideEmpty => {
      editor := (w.editor.messages search hideEmpty).editor
      polled := w.polled ++ [w.editor.poll.1] }

end Watched

/-- The editor with nothing in its log and nothing to be polled. -/
def fresh (e : Editor) : Editor := { e with bus := { e.bus with outbound := [] }, log := [] }

def watch (e : Editor) (schedule : List Action) : Watched :=
  schedule.foldl Watched.act { editor := e }

/-- The messages behind the last clearing. -/
def sinceClearing (messages : List (Message Value)) : List (Message Value) :=
  messages.rtakeWhile fun m => !m.isCleared

theorem extend_append (log first later : List (Message Value)) :
    extend log (first ++ later) = extend (extend log first) later := List.foldl_append

theorem extend_nil (messages : List (Message Value)) :
    extend [] messages = sinceClearing messages := by
  induction messages using List.reverseRecOn with
  | nil => rfl
  | append_singleton before m ih =>
      rw [extend_append, ih, sinceClearing, sinceClearing, List.rtakeWhile_concat]
      cases hm : m.isCleared <;> simp [extend, hm]

theorem not_isCleared_of_mem {messages : List (Message Value)} {m : Message Value}
    (h : m ∈ sinceClearing messages) : m.isCleared = false := by
  simpa using List.mem_rtakeWhile_imp h

theorem mem_of_mem_sinceClearing {messages : List (Message Value)} {m : Message Value}
    (h : m ∈ sinceClearing messages) : m ∈ messages :=
  (List.rtakeWhile_suffix _ _).subset h

/-- Only notifications are published. -/
theorem isNotification_of_published {schedule : List Action} {m : Message Value}
    (h : m ∈ published schedule) : m.isNotification = true := by
  obtain ⟨action, -, hm⟩ := List.mem_flatMap.mp h
  cases action with
  | publish notice =>
      rw [List.mem_singleton.mp hm]
      exact notice.2
  | clear =>
      rw [List.mem_singleton.mp hm]
      rfl
  | poll | messages _ _ => cases hm

/-- What was published was polled or waits, and the log is what was polled since the last
clearing. -/
structure Accounts (w : Watched) (outbound : List (Message Value)) : Prop where
  outbound_eq : w.polled.flatten ++ w.editor.bus.outbound = outbound
  log_eq : w.editor.log = sinceClearing w.polled.flatten

theorem accounts_poll {w : Watched} {outbound : List (Message Value)} (h : Accounts w outbound) :
    Accounts { editor := w.editor.poll.2, polled := w.polled ++ [w.editor.poll.1] } outbound where
  outbound_eq := by simpa [poll, Bus.drain] using h.outbound_eq
  log_eq := by
    have hlog : extend w.editor.log w.editor.bus.outbound =
        sinceClearing (w.polled.flatten ++ w.editor.bus.outbound) := by
      rw [h.log_eq, ← extend_nil, ← extend_append, extend_nil]
    simpa [poll, Bus.drain] using hlog

/-- One action keeps the account. -/
theorem accounts_act {w : Watched} {outbound : List (Message Value)} (h : Accounts w outbound)
    (action : Action) : Accounts (w.act action) (outbound ++ action.published) := by
  have hpublish (m : Message Value) :
      Accounts { w with editor := w.editor.publish m } (outbound ++ [m]) :=
    ⟨by simp [publish, Bus.publish, ← h.outbound_eq], h.log_eq⟩
  cases action with
  | publish notice => exact hpublish notice.1
  | clear => exact hpublish .cleared
  | poll => simpa [Action.published, Watched.act] using accounts_poll h
  | messages search hideEmpty =>
      simpa [Action.published, Watched.act, messages] using accounts_poll h

theorem accounts_watch (e : Editor) (schedule : List Action) :
    Accounts (watch e.fresh schedule) (published schedule) := by
  induction schedule using List.reverseRecOn with
  | nil => exact ⟨rfl, rfl⟩
  | append_singleton before action ih =>
      simpa [watch, published] using accounts_act ih action

/-- A poll leaves nothing waiting. -/
theorem outbound_watch_of_polls (e : Editor) (before : List Action) {last : Action}
    (h : last.polls = true) : (watch e (before ++ [last])).editor.bus.outbound = [] := by
  simp only [watch, List.foldl_append, List.foldl_cons, List.foldl_nil]
  cases last with
  | poll | messages _ _ => rfl
  | publish _ | clear => cases h

/-- After a poll the log is what was published since the last clearing. -/
theorem log_watch_of_polls (e : Editor) (before : List Action) {last : Action}
    (h : last.polls = true) :
    (watch e.fresh (before ++ [last])).editor.log =
      sinceClearing (published (before ++ [last])) := by
  have haccounts := accounts_watch e (before ++ [last])
  rw [haccounts.log_eq, ← haccounts.outbound_eq, outbound_watch_of_polls e.fresh before h,
    List.append_nil]

/-- A poll while workers go on publishing. -/
def pollAmid (e : Editor) (arriving : List (List (Message Value))) :
    List (Message Value) × Editor :=
  let (waiting, left) := Bus.takeAmid e.bus.outbound arriving
  (waiting, { e with bus := { e.bus with outbound := left }, log := extend e.log waiting })

def publishAll (e : Editor) (messages : List (Message Value)) : Editor :=
  messages.foldl publish e

theorem publishAll_eq (e : Editor) (messages : List (Message Value)) :
    e.publishAll messages = { e with bus := e.bus.publishAll messages } := by
  induction messages generalizing e with
  | nil => simp [publishAll, Bus.publishAll]
  | cons m rest ih =>
      have h := ih (e.publish m)
      simpa [publishAll, publish, Bus.publish, Bus.publishAll] using h

/-- It is a poll at one point of what they publish. -/
theorem pollAmid_eq (e : Editor) (arriving : List (List (Message Value))) :
    ∃ seen unseen, arriving.flatten = seen ++ unseen ∧
      e.pollAmid arriving =
        ((e.publishAll seen).poll.1, (e.publishAll seen).poll.2.publishAll unseen) := by
  obtain ⟨seen, unseen, hflat, htaken⟩ := Bus.takeAmid_eq e.bus.outbound arriving
  refine ⟨seen, unseen, hflat, ?_⟩
  simp [pollAmid, htaken, publishAll_eq, poll, Bus.publishAll, Bus.drain]

/-- Notifications are what some actions publish. -/
theorem exists_published {messages : List (Message Value)}
    (h : messages.all Message.isNotification = true) :
    ∃ schedule : List Action, (∀ action ∈ schedule, action.polls = false) ∧
      published schedule = messages := by
  induction messages with
  | nil => exact ⟨[], by simp, rfl⟩
  | cons m rest ih =>
      rw [List.all_cons, Bool.and_eq_true] at h
      obtain ⟨schedule, hpolls, hpublished⟩ := ih h.2
      refine ⟨.publish ⟨m, h.1⟩ :: schedule, List.forall_mem_cons.mpr ⟨rfl, hpolls⟩, ?_⟩
      rw [published, List.flatMap_cons, ← published, hpublished]
      rfl

theorem settleExecution_publishes (e : Editor) :
    ∃ messages : List (Message Value), messages.all Message.isNotification = true ∧
      e.settleExecution.1.bus.outbound = e.bus.outbound ++ messages ∧
      e.settleExecution.1.log = e.log := by
  unfold settleExecution
  split
  · exact ⟨_, Handled.notifies_run (ExecutionWorker.notifies_step fuel e.cache) _ _, rfl, rfl⟩
  · exact ⟨[], rfl, (List.append_nil _).symm, rfl⟩

theorem settleStreaming_publishes (e : Editor) :
    ∃ messages : List (Message Value), messages.all Message.isNotification = true ∧
      e.settleStreaming.1.bus.outbound = e.bus.outbound ++ messages ∧
      e.settleStreaming.1.log = e.log := by
  unfold settleStreaming
  split
  · exact ⟨_, Handled.notifies_run StreamingWorker.notifies_step _ _, rfl, rfl⟩
  · exact ⟨[], rfl, (List.append_nil _).symm, rfl⟩

/-- Whatever the workers do with what they were sent, to the log it is a number of publishings. -/
theorem settle_publishes (e : Editor) :
    ∃ schedule : List Action, (∀ action ∈ schedule, action.polls = false) ∧
      e.settle.editor.bus.outbound = e.bus.outbound ++ published schedule ∧
      e.settle.editor.log = e.log := by
  obtain ⟨first, hfirst, hout, hlog⟩ := e.settleExecution_publishes
  obtain ⟨later, hlater, hout', hlog'⟩ := e.settleExecution.1.settleStreaming_publishes
  have hall : (first ++ later).all Message.isNotification = true := by
    rw [List.all_append, hfirst, hlater]
    rfl
  obtain ⟨schedule, hpolls, hpublished⟩ := exists_published hall
  refine ⟨schedule, hpolls, ?_, ?_⟩
  · rw [hpublished, ← List.append_assoc, ← hout, ← hout']
    rfl
  · rw [← hlog, ← hlog']
    rfl

/-- For every schedule of publishings, clearings and polls: the polled lists and what still waits
make up the outbound sequence, and the log is what was polled since the last clearing. A clearing
never stands in it, so all of it has a form for clients. After a poll the log is what was published
since the last clearing, whatever the polls before it were; and a poll that workers publish in the
midst of is a poll at one point of what they publish. -/
theorem log_since_last_clearing (e : Editor) (schedule : List Action) :
    let w := watch e.fresh schedule
    w.polled.flatten ++ w.editor.bus.outbound = published schedule ∧
      w.editor.log = sinceClearing w.polled.flatten ∧
      (∀ m ∈ w.editor.log, m.isCleared = false ∧
        ∀ view : Value → Document, ∃ d, m.transport (fun v => .ok (view v)) = .ok d) ∧
      (∀ before last, schedule = before ++ [last] → last.polls = true →
        w.polled.flatten = published schedule ∧
        w.editor.log = sinceClearing (published schedule) ∧
        ∀ (e' : Editor) (other : List Action) (last' : Action),
          published (other ++ [last']) = published schedule → last'.polls = true →
          (watch e'.fresh (other ++ [last'])).editor.log = w.editor.log) ∧
      ∀ arriving, ∃ seen unseen, arriving.flatten = seen ++ unseen ∧
        w.editor.pollAmid arriving = ((w.editor.publishAll seen).poll.1,
          (w.editor.publishAll seen).poll.2.publishAll unseen) := by
  intro w
  have haccounts : Accounts w (published schedule) := accounts_watch e schedule
  refine ⟨haccounts.outbound_eq, haccounts.log_eq, fun m hm => ?_, ?_, w.editor.pollAmid_eq⟩
  · rw [haccounts.log_eq] at hm
    have hpublished : m ∈ published schedule := by
      rw [← haccounts.outbound_eq]
      exact List.mem_append_left _ (mem_of_mem_sinceClearing hm)
    exact ⟨not_isCleared_of_mem hm,
      Message.transport_of_isNotification (isNotification_of_published hpublished)⟩
  · rintro before last rfl hlast
    have hlog := log_watch_of_polls e before hlast
    refine ⟨?_, hlog, fun e' other last' hsame hlast' => ?_⟩
    · have hout := haccounts.outbound_eq
      rwa [outbound_watch_of_polls e.fresh before hlast, List.append_nil] at hout
    · rw [log_watch_of_polls e' other hlast', hsame, hlog]

end Editor

end BlockWorkbench
