import BlockWorkbench.Owner
import BlockWorkbench.Proofs.Representation

/-!
The owner of a graph among its clients. However they submit operations, cancel them and stop the
owner while it is at work, the operations that it carries out give what they give one after the
other, in the order in which they were submitted.
-/

namespace BlockWorkbench.Owner

open BlockWorkbench.Graph (Operation)

/-! ### A queue worked through -/

/-- The operations of a queue that are carried out: those in front of the first stop that are not
cancelled. -/
def effective : List Item → List Operation
  | [] | .stop :: _ => []
  | .operation _ true :: rest => effective rest
  | .operation op false :: rest => op :: effective rest

/-- A queue of operations that nobody cancels or stops. -/
def sequential (operations : List Operation) : List Item := operations.map (.operation · false)

namespace Outcome

def answer? : Outcome → Option (Except Fault Graph.Answer)
  | .answered result => some result
  | .cancelled | .pending => none

def isCancelled : Outcome → Bool
  | .cancelled => true
  | .answered _ | .pending => false

end Outcome

theorem run_graph (g : Graph) (items : List Item) : (run g items).2 = g.after (effective items) := by
  induction items generalizing g with
  | nil => rfl
  | cons item rest ih =>
      match item with
      | .operation op true => exact ih g
      | .operation op false => exact ih (g.perform op).2
      | .stop => rfl

/-- In front of a stop the owner goes on with what its graph has become. -/
theorem run_append {g : Graph} {before : List Item} (h : .stop ∉ before) (rest : List Item) :
    run g (before ++ rest) = ((run g before).1 ++ (run (run g before).2 rest).1,
      (run (run g before).2 rest).2) := by
  induction before generalizing g with
  | nil => rfl
  | cons item before ih =>
      obtain ⟨hitem, hbefore⟩ := not_or.mp (List.mem_cons.not.mp h)
      match item with
      | .operation op true => simp only [List.cons_append, run, ih hbefore]
      | .operation op false => simp only [List.cons_append, run, ih hbefore]
      | .stop => exact absurd rfl hitem

/-- Behind a stop it does nothing. -/
theorem run_append_of_stop {g : Graph} {before : List Item} (h : .stop ∈ before)
    (rest : List Item) :
    run g (before ++ rest) = ((run g before).1 ++ rest.filterMap unserved, (run g before).2) := by
  induction before generalizing g with
  | nil => cases h
  | cons item before ih =>
      match item with
      | .operation op true =>
          have hbefore : .stop ∈ before := by simpa using h
          simp only [List.cons_append, run, ih hbefore]
      | .operation op false =>
          have hbefore : .stop ∈ before := by simpa using h
          simp only [List.cons_append, run, ih hbefore]
      | .stop => simp [run]

/-- A module changes under the eyes of its client as if only what is effective were there. -/
theorem settled_effective (g : Graph) (rest : List Item) (id : Scalar) (m : Module) :
    settled g rest id m = settled g (sequential (effective rest)) id m := by
  induction rest generalizing g m with
  | nil => rfl
  | cons item rest ih =>
      match item with
      | .operation op true => exact ih g m
      | .operation op false =>
          simp only [settled, effective, sequential, List.map_cons]
          split
          · rfl
          · split
            · exact ih _ _
            · rfl
      | .stop => rfl

theorem unserved_answers (rest : List Item) :
    (rest.filterMap unserved).filterMap Outcome.answer? = [] := by
  simp only [List.filterMap_eq_nil_iff, List.mem_filterMap]
  rintro outcome ⟨item, -, hitem⟩
  match item with
  | .operation op true | .operation op false =>
      cases hitem
      rfl

/-- What the clients have seen when the queue is done is what they would have seen had only the
effective operations been there. -/
theorem outcomes_effective (g : Graph) (items : List Item) :
    (outcomes g items).filterMap Outcome.answer? =
      (outcomes g (sequential (effective items))).filterMap Outcome.answer? := by
  induction items generalizing g with
  | nil => rfl
  | cons item rest ih =>
      match item with
      | .operation op true => exact ih g
      | .operation op false =>
          have hsettled : settled (g.perform op).2 rest =
              settled (g.perform op).2 (sequential (effective rest)) := by
            funext id m
            exact settled_effective _ rest id m
          simp only [outcomes, effective, sequential, List.map_cons, List.filterMap_cons,
            Outcome.answer?, hsettled, List.cons.injEq, true_and]
          exact ih _
      | .stop => exact unserved_answers rest

/-! ### Clients and the owner at work -/

/-- What stands in the queue or was taken from it: an operation that a client submitted, with its
outcome so far, or a stop. -/
inductive Entry where
  | request (client : Nat) (op : Operation) (outcome : Outcome)
  | stop

namespace Entry

def item : Entry → Item
  | request _ op outcome => .operation op outcome.isCancelled
  | stop => .stop

def outcome? : Entry → Option Outcome
  | request _ _ outcome => some outcome
  | stop => none

def submission? : Entry → Option (Nat × Operation)
  | request client op _ => some (client, op)
  | stop => none

/-- The operation and its client, if it was carried out. -/
def carriedOut? : Entry → Option (Nat × Operation)
  | request client op (.answered _) => some (client, op)
  | _ => none

def isCancelled : Entry → Bool
  | request _ _ outcome => outcome.isCancelled
  | stop => false

def cancel : Entry → Entry
  | request client op _ => request client op .cancelled
  | stop => stop

end Entry

inductive Action where
  | submit (client : Nat) (op : Operation)
  /-- Cancels what was queued at a place, unless the owner has taken it. -/
  | cancel (place : Nat)
  | stop
  /-- The owner takes the next entry, or brings to an end what it is at. -/
  | proceed

def Action.submission? : Action → Option (Nat × Operation)
  | submit client op => some (client, op)
  | cancel _ | stop | proceed => none

/-- An owner with its queue. -/
structure Service where
  graph : Graph
  /-- What it took from the queue and is done with. -/
  past : List Entry := []
  /-- What it is at, and whose operation it is. -/
  running : Option (Nat × Operation) := none
  /-- The queue. -/
  ahead : List Entry := []
  stopped : Bool := false

namespace Service

/-- What the owner has taken from the queue. -/
def taken (s : Service) : List Entry :=
  s.past ++ s.running.toList.map fun (client, op) => .request client op .pending

/-- Everything that was queued, in order. -/
def entries (s : Service) : List Entry := s.taken ++ s.ahead

def queue (s : Service) : List Item := s.entries.map Entry.item

/-- The operations that were carried out, each with its client. -/
def carriedOut (s : Service) : List (Nat × Operation) := s.entries.filterMap Entry.carriedOut?

def proceed (s : Service) : Service :=
  match s.running with
  | some (client, op) =>
    let (result, graph) := s.graph.perform op
    { s with graph, running := none, past := s.past ++ [.request client op (.answered result)] }
  | none =>
    if s.stopped then s
    else
      match s.ahead with
      | [] => s
      | .stop :: rest => { s with past := s.past ++ [.stop], ahead := rest, stopped := true }
      | .request client op .cancelled :: rest =>
        { s with past := s.past ++ [.request client op .cancelled], ahead := rest }
      | .request client op _ :: rest => { s with running := some (client, op), ahead := rest }

def enqueue (s : Service) (e : Entry) : Service := { s with ahead := s.ahead ++ [e] }

def act (s : Service) : Action → Service
  | .submit client op => s.enqueue (.request client op .pending)
  | .cancel place =>
    if s.taken.length ≤ place then
      { s with ahead := s.ahead.modify (place - s.taken.length) Entry.cancel }
    else s
  | .stop => s.enqueue .stop
  | .proceed => s.proceed

/-- Whether the owner has nothing left to do. -/
def Settled (s : Service) : Prop := s.running = none ∧ (s.stopped = true ∨ s.ahead = [])

end Service

/-- What becomes of a graph and its queue. -/
def serve (g : Graph) (schedule : List Action) : Service :=
  schedule.foldl Service.act { graph := g }

theorem serve_append (g : Graph) (schedule later : List Action) :
    serve g (schedule ++ later) = later.foldl Service.act (serve g schedule) :=
  List.foldl_append

/-- Whether an entry waits or was cancelled while it waited. -/
def Entry.Waits (e : Entry) : Prop := unserved e.item = e.outcome?

theorem filterMap_unserved {entries : List Entry} (h : ∀ e ∈ entries, e.Waits) :
    (entries.map Entry.item).filterMap unserved = entries.filterMap Entry.outcome? := by
  rw [List.filterMap_map]
  exact List.filterMap_congr h

/-- The owner has worked through what it has taken, and the rest waits. -/
structure Going (g : Graph) (s : Service) : Prop where
  past : run g (s.past.map Entry.item) = (s.past.filterMap Entry.outcome?, s.graph)
  ahead : ∀ e ∈ s.ahead, e.Waits
  unstopped : s.stopped = false → .stop ∉ s.past
  stopped : s.stopped = true → .stop ∈ s.past ∧ s.running = none

theorem stop_mem_items {entries : List Entry} : .stop ∈ entries.map Entry.item ↔ .stop ∈ entries := by
  constructor
  · intro h
    obtain ⟨e, he, hstop⟩ := List.mem_map.mp h
    cases e with
    | request _ _ _ => cases hstop
    | stop => exact he
  · exact fun h => List.mem_map_of_mem (f := Entry.item) h

namespace Going

variable {g : Graph} {s : Service}

/-- One more entry is done. -/
theorem past_append (h : Going g s) (hopen : s.stopped = false) (e : Entry) :
    run g ((s.past ++ [e]).map Entry.item) =
      (s.past.filterMap Entry.outcome? ++ (run s.graph [e.item]).1, (run s.graph [e.item]).2) := by
  rw [List.map_append, List.map_singleton,
    run_append (stop_mem_items.not.mpr (h.unstopped hopen)), h.past]

theorem proceed (h : Going g s) : Going g s.proceed := by
  unfold Service.proceed
  split
  · rename_i client op hrunning
    -- A service that has stopped runs nothing.
    have hopen : s.stopped = false := by
      cases hstopped : s.stopped with
      | false => rfl
      | true => simp [(h.stopped hstopped).2] at hrunning
    refine ⟨?_, h.ahead, fun _ => ?_, fun hstopped => ?_⟩
    · rw [h.past_append hopen]
      simp [Entry.item, Entry.outcome?, Outcome.isCancelled, run]
    · simpa using h.unstopped hopen
    · simp [hopen] at hstopped
  · rename_i hrunning
    split
    · exact h
    · rename_i hopen
      rw [Bool.not_eq_true] at hopen
      split
      · exact h
      · rename_i rest hahead
        have hrest : ∀ e ∈ rest, e.Waits := fun e he => h.ahead e (hahead ▸ List.mem_cons_of_mem _ he)
        refine ⟨?_, hrest, nofun, fun _ => ⟨by simp, hrunning⟩⟩
        rw [h.past_append hopen]
        simp [Entry.item, Entry.outcome?, run]
      · rename_i client op rest hahead
        have hrest : ∀ e ∈ rest, e.Waits := fun e he => h.ahead e (hahead ▸ List.mem_cons_of_mem _ he)
        refine ⟨?_, hrest, fun _ => by simpa using h.unstopped hopen, fun hstopped => ?_⟩
        · rw [h.past_append hopen]
          simp [Entry.item, Entry.outcome?, Outcome.isCancelled, run]
        · simp [hopen] at hstopped
      · rename_i client op outcome rest hcancelled hahead
        have hrest : ∀ e ∈ rest, e.Waits := fun e he => h.ahead e (hahead ▸ List.mem_cons_of_mem _ he)
        exact ⟨h.past, hrest, h.unstopped, fun hstopped => by simp [hopen] at hstopped⟩

/-- Whatever clients and the owner do next, the work goes on. -/
theorem act (h : Going g s) (action : Action) : Going g (s.act action) := by
  have hqueue (e : Entry) (he : e.Waits) : Going g (s.enqueue e) :=
    ⟨h.past, List.forall_mem_append.mpr ⟨h.ahead, List.forall_mem_singleton.mpr he⟩, h.unstopped,
      h.stopped⟩
  cases action with
  | submit client op => exact hqueue _ rfl
  | stop => exact hqueue _ rfl
  | proceed => exact h.proceed
  | cancel place =>
      simp only [Service.act]
      split
      · refine ⟨h.past, fun e he => ?_, h.unstopped, h.stopped⟩
        obtain ⟨i, hi⟩ := List.mem_iff_getElem?.mp he
        rw [List.getElem?_modify] at hi
        obtain ⟨e', he', rfl⟩ := Option.map_eq_some_iff.mp hi
        have hwaits := h.ahead e' (List.mem_of_getElem? he')
        split
        · cases e' <;> rfl
        · exact hwaits
      · exact h

/-- When it is done, the owner has worked through the whole queue. -/
theorem of_settled (h : Going g s) (hs : s.Settled) :
    run g s.queue = (s.entries.filterMap Entry.outcome?, s.graph) := by
  obtain ⟨hrunning, hend⟩ := hs
  have hentries : s.entries = s.past ++ s.ahead := by
    simp [Service.entries, Service.taken, hrunning]
  rw [Service.queue, hentries, List.map_append, List.filterMap_append]
  cases hstopped : s.stopped with
  | true =>
      rw [run_append_of_stop (stop_mem_items.mpr (h.stopped hstopped).1), h.past,
        filterMap_unserved h.ahead]
  | false =>
      have hahead : s.ahead = [] := by simpa [hstopped] using hend
      simp [hahead, h.past]

end Going

theorem going_serve (g : Graph) (schedule : List Action) : Going g (serve g schedule) := by
  induction schedule using List.reverseRecOn with
  | nil => exact ⟨rfl, by simp [serve], by simp [serve], by simp [serve]⟩
  | append_singleton before action ih =>
      rw [serve_append]
      exact ih.act action

/-! ### Outcomes -/

/-- What an operation gets that stands behind `before` in the queue of an owner of `g`. -/
inductive Gets (g : Graph) (before : List Item) (op : Operation) : Bool → Outcome → Prop
  | cancelled : Gets g before op true .cancelled
  | answered (h : .stop ∉ before) :
      Gets g before op false (.answered ((g.after (effective before)).perform op).1)
  | pending (h : .stop ∈ before) : Gets g before op false .pending

namespace Gets

variable {g : Graph} {before : List Item} {op : Operation} {cancelled : Bool} {outcome : Outcome}

theorem behind_cancelled (h : Gets g before op cancelled outcome) (op' : Operation) :
    Gets g (.operation op' true :: before) op cancelled outcome := by
  cases h with
  | cancelled => exact .cancelled
  | answered hstop => exact .answered (by simpa using hstop)
  | pending hstop => exact .pending (by simpa using hstop)

theorem behind_operation {op' : Operation} (h : Gets (g.perform op').2 before op cancelled outcome) :
    Gets g (.operation op' false :: before) op cancelled outcome := by
  cases h with
  | cancelled => exact .cancelled
  | answered hstop => exact .answered (by simpa using hstop)
  | pending hstop => exact .pending (by simpa using hstop)

end Gets

/-- Entries that are not reached wait or are cancelled. -/
theorem waits_of_unserved {entries : List Entry}
    (h : (entries.map Entry.item).filterMap unserved = entries.filterMap Entry.outcome?) :
    ∀ e ∈ entries, e.Waits := by
  induction entries with
  | nil => simp
  | cons e rest ih =>
      cases e with
      | stop => exact List.forall_mem_cons.mpr ⟨rfl, ih h⟩
      | request client op outcome =>
          cases outcome with
          | answered _ =>
              simp [Entry.item, Outcome.isCancelled, unserved, Entry.outcome?] at h
          | cancelled | pending =>
              exact List.forall_mem_cons.mpr ⟨rfl, ih (List.cons.inj h).2⟩

theorem Entry.Waits.gets {client : Nat} {op : Operation} {outcome : Outcome}
    (h : (Entry.request client op outcome).Waits) (g : Graph) {before : List Item}
    (hstop : .stop ∈ before) : Gets g before op outcome.isCancelled outcome := by
  cases outcome with
  | answered _ => cases h
  | cancelled => exact .cancelled
  | pending => exact .pending hstop

/-- Entries that got what a run gives got what their places in the queue give. -/
theorem gets_of_run {g : Graph} {entries : List Entry}
    (h : (run g (entries.map Entry.item)).1 = entries.filterMap Entry.outcome?)
    {before behind : List Entry} {client : Nat} {op : Operation} {outcome : Outcome}
    (hentries : entries = before ++ .request client op outcome :: behind) :
    Gets g (before.map Entry.item) op outcome.isCancelled outcome := by
  induction before generalizing g entries with
  | nil =>
      subst hentries
      cases outcome with
      | cancelled => exact .cancelled
      | answered result =>
          obtain ⟨hresult, -⟩ := List.cons.inj h
          cases hresult
          exact .answered (by simp)
      | pending => cases (List.cons.inj h).1
  | cons e before ih =>
      subst hentries
      cases e with
      | stop =>
          have hwaits := waits_of_unserved h
          exact (hwaits (.request client op outcome) (by simp)).gets g (by simp [Entry.item])
      | request client' op' outcome' =>
          cases outcome' with
          | cancelled => exact (ih (List.cons.inj h).2 rfl).behind_cancelled op'
          | answered _ | pending => exact (ih (List.cons.inj h).2 rfl).behind_operation

/-- What is effective was carried out, and nothing else. -/
theorem carriedOut_of_run {g : Graph} {entries : List Entry}
    (h : (run g (entries.map Entry.item)).1 = entries.filterMap Entry.outcome?) :
    (entries.filterMap Entry.carriedOut?).map (·.2) = effective (entries.map Entry.item) := by
  induction entries generalizing g with
  | nil => rfl
  | cons e rest ih =>
      cases e with
      | stop =>
          have hnone : rest.filterMap Entry.carriedOut? = [] := by
            rw [List.filterMap_eq_nil_iff]
            intro e he
            have hwaits := waits_of_unserved h e he
            match e with
            | .stop | .request _ _ .cancelled | .request _ _ .pending => rfl
            | .request _ _ (.answered _) => cases hwaits
          rw [List.filterMap_cons_none rfl, hnone]
          rfl
      | request client op outcome =>
          cases outcome with
          | cancelled => exact ih (List.cons.inj h).2
          | answered result => exact congrArg (op :: ·) (ih (List.cons.inj h).2)
          | pending => cases (List.cons.inj h).1

/-! ### Cancellations -/

namespace Service

/-- Whether the place holds an operation that was cancelled. -/
def CancelledAt (s : Service) (place : Nat) : Prop :=
  ∃ client op, s.entries[place]? = some (.request client op .cancelled)

/-- Whether the owner has yet to take the operation at the place. -/
def WaitsAt (s : Service) (place : Nat) : Prop :=
  s.taken.length ≤ place ∧ ∃ client op outcome, s.entries[place]? = some (.request client op outcome)

theorem cancelledAt_iff {s : Service} {place : Nat} :
    s.CancelledAt place ↔ (s.entries.map Entry.isCancelled)[place]? = some true := by
  rw [List.getElem?_map, Option.map_eq_some_iff]
  constructor
  · rintro ⟨client, op, h⟩
    exact ⟨_, h, rfl⟩
  · rintro ⟨e, he, hcancelled⟩
    match e with
    | .request client op .cancelled => exact ⟨client, op, he⟩

theorem entries_cancel (s : Service) {place : Nat} (h : s.taken.length ≤ place) :
    (s.act (.cancel place)).entries = s.entries.modify place Entry.cancel := by
  have hmodify : s.entries.modify place Entry.cancel =
      s.taken ++ s.ahead.modify (place - s.taken.length) Entry.cancel := by
    simp only [entries, List.modify_eq_take_drop, List.take_append, List.drop_append,
      List.take_of_length_le h, List.drop_of_length_le h, List.nil_append, List.append_assoc]
  rw [hmodify, act, if_pos h]
  rfl

theorem isCancelled_proceed (s : Service) :
    s.proceed.entries.map Entry.isCancelled = s.entries.map Entry.isCancelled := by
  unfold proceed
  split
  · rename_i hrunning
    simp [entries, taken, hrunning, Entry.isCancelled, Outcome.isCancelled]
  · rename_i hrunning
    split
    · rfl
    · split
      · rfl
      · rename_i hahead
        simp [entries, taken, hrunning, hahead]
      · rename_i hahead
        simp [entries, taken, hrunning, hahead]
      · rename_i client op outcome rest hcancelled hahead
        have houtcome : outcome.isCancelled = Outcome.pending.isCancelled := by
          cases outcome with
          | cancelled => exact absurd rfl hcancelled
          | answered _ | pending => rfl
        simp [entries, taken, hrunning, hahead, Entry.isCancelled, houtcome]

theorem entries_enqueue (s : Service) (e : Entry) : (s.enqueue e).entries = s.entries ++ [e] := by
  simp [entries, taken, enqueue]

theorem cancelledAt_enqueue (s : Service) {e : Entry} (he : e.isCancelled = false) {place : Nat} :
    (s.enqueue e).CancelledAt place ↔ s.CancelledAt place := by
  rw [cancelledAt_iff, cancelledAt_iff, entries_enqueue, List.map_append, List.map_singleton, he,
    List.getElem?_append]
  split
  · rfl
  · rename_i hlength
    rw [List.getElem?_eq_none (not_lt.mp hlength), List.getElem?_singleton]
    split <;> simp

/-- Only a cancellation cancels, and only what waits. -/
theorem cancelledAt_act {s : Service} {action : Action} {place : Nat} :
    (s.act action).CancelledAt place ↔
      s.CancelledAt place ∨ action = .cancel place ∧ s.WaitsAt place := by
  cases action with
  | submit client op =>
      rw [act, s.cancelledAt_enqueue rfl]
      simp
  | stop =>
      rw [act, s.cancelledAt_enqueue rfl]
      simp
  | proceed =>
      rw [cancelledAt_iff, act, isCancelled_proceed, ← cancelledAt_iff]
      simp
  | cancel place' =>
      by_cases htaken : s.taken.length ≤ place'
      · simp only [CancelledAt, WaitsAt, s.entries_cancel htaken, List.getElem?_modify,
          Action.cancel.injEq]
        by_cases hplace : place' = place
        · subst hplace
          cases hentry : s.entries[place']? with
          | none => simp
          | some e => cases e <;> simp [Entry.cancel, htaken]
        · simp [hplace]
      · rw [act, if_neg htaken]
        constructor
        · exact .inl
        · rintro (h | ⟨hplace, hwaits, -⟩)
          · exact h
          · cases hplace
            exact absurd hwaits htaken

end Service

/-- What is cancelled in the end is what was cancelled at some time before the owner took it. -/
theorem cancelledAt_serve {g : Graph} {schedule : List Action} {place : Nat} :
    (serve g schedule).CancelledAt place ↔
      ∃ before behind, schedule = before ++ .cancel place :: behind ∧
        (serve g before).WaitsAt place := by
  induction schedule using List.reverseRecOn with
  | nil => simp [serve, Service.CancelledAt, Service.entries, Service.taken]
  | append_singleton schedule action ih =>
      rw [serve_append, List.foldl_cons, List.foldl_nil, Service.cancelledAt_act, ih]
      constructor
      · rintro (⟨before, behind, rfl, hwaits⟩ | ⟨rfl, hwaits⟩)
        · exact ⟨before, behind ++ [action], by simp, hwaits⟩
        · exact ⟨schedule, [], rfl, hwaits⟩
      · rintro ⟨before, behind, hschedule, hwaits⟩
        obtain rfl | ⟨behind, last, rfl⟩ := behind.eq_nil_or_concat
        · obtain ⟨rfl, hlast⟩ := List.append_inj' hschedule rfl
          exact .inr ⟨List.singleton_inj.mp hlast, hwaits⟩
        · rw [List.concat_eq_append, ← List.cons_append, ← List.append_assoc] at hschedule
          obtain ⟨rfl, -⟩ := List.append_inj' hschedule rfl
          exact .inl ⟨before, behind, rfl, hwaits⟩

/-! ### Clients -/

namespace Service

theorem submissions_proceed (s : Service) :
    s.proceed.entries.filterMap Entry.submission? = s.entries.filterMap Entry.submission? := by
  unfold proceed
  split
  · rename_i hrunning
    simp [entries, taken, hrunning, Entry.submission?]
  · rename_i hrunning
    split
    · rfl
    · split
      · rfl
      · rename_i hahead
        simp [entries, taken, hrunning, hahead]
      · rename_i hahead
        simp [entries, taken, hrunning, hahead]
      · rename_i hahead
        simp [entries, taken, hrunning, hahead, Entry.submission?]

theorem filterMap_modify {α β : Type} {f : α → α} {view : α → Option β}
    (h : ∀ a, view (f a) = view a) (l : List α) (i : Nat) :
    (l.modify i f).filterMap view = l.filterMap view := by
  induction l generalizing i with
  | nil => simp
  | cons a l ih => cases i <;> simp [List.filterMap_cons, h, ih]

theorem submissions_act (s : Service) (action : Action) :
    (s.act action).entries.filterMap Entry.submission? =
      s.entries.filterMap Entry.submission? ++ action.submission?.toList := by
  cases action with
  | submit client op =>
      rw [act, entries_enqueue, List.filterMap_append]
      rfl
  | stop =>
      rw [act, entries_enqueue, List.filterMap_append]
      rfl
  | proceed =>
      rw [act, submissions_proceed]
      simp [Action.submission?]
  | cancel place =>
      have hcancel (e : Entry) : e.cancel.submission? = e.submission? := by cases e <;> rfl
      by_cases htaken : s.taken.length ≤ place
      · rw [s.entries_cancel htaken, filterMap_modify hcancel]
        simp [Action.submission?]
      · simp [act, htaken, Action.submission?]

end Service

/-- The queue is in the order of the submissions. -/
theorem submissions_serve (g : Graph) (schedule : List Action) :
    (serve g schedule).entries.filterMap Entry.submission? =
      schedule.filterMap Action.submission? := by
  induction schedule using List.reverseRecOn with
  | nil => rfl
  | append_singleton schedule action ih =>
      rw [serve_append, List.foldl_cons, List.foldl_nil, Service.submissions_act, ih,
        List.filterMap_append]
      cases action <;> rfl

/-- What is carried out is carried out in the order of the submissions. -/
theorem carriedOut_sublist (entries : List Entry) :
    (entries.filterMap Entry.carriedOut?).Sublist (entries.filterMap Entry.submission?) := by
  induction entries with
  | nil => exact .slnil
  | cons e rest ih =>
      match e with
      | .stop => exact ih
      | .request client op (.answered _) => exact ih.cons_cons (client, op)
      | .request client op .cancelled | .request client op .pending => exact ih.cons (client, op)

/-! ### The end of the work -/

namespace Service

/-- How often the owner has to act until it is done, at most. -/
def effort (s : Service) : Nat := 2 * s.ahead.length + s.running.toList.length

theorem effort_proceed {s : Service} (h : ¬s.Settled) : s.proceed.effort < s.effort := by
  unfold proceed
  split
  · rename_i hrunning
    simp [effort, hrunning]
  · rename_i hrunning
    split
    · rename_i hstopped
      exact absurd ⟨hrunning, .inl hstopped⟩ h
    · split
      · rename_i hahead
        exact absurd ⟨hrunning, .inr hahead⟩ h
      all_goals
        rename_i hahead
        simp only [effort, hrunning, hahead, Option.toList_none, Option.toList_some, List.length_nil,
          List.length_cons]
        omega

/-- Left to itself, the owner is done at some time. -/
theorem settles (s : Service) :
    ∃ n, ((List.replicate n Action.proceed).foldl act s).Settled := by
  induction heffort : s.effort using Nat.strong_induction_on generalizing s with
  | _ effort ih =>
      by_cases hs : s.Settled
      · exact ⟨0, hs⟩
      · obtain ⟨n, hn⟩ := ih _ (heffort ▸ effort_proceed hs) s.proceed rfl
        exact ⟨n + 1, by simpa [List.replicate_succ, act] using hn⟩

end Service

/-- What an owner that is done has made of a schedule. -/
structure Serialised (g : Graph) (schedule : List Action) (s : Service) : Prop where
  /-- It went once through the queue. -/
  run_eq : run g s.queue = (s.entries.filterMap Entry.outcome?, s.graph)
  /-- The graph is what the effective operations leave one after the other. -/
  graph_eq : s.graph = g.after (effective s.queue)
  /-- Each operation gets what it gives behind the effective ones in front of it, whether those
  succeed or fail; it is cancelled, or it waits behind a stop. -/
  gets {before behind : List Entry} {client : Nat} {op : Operation} {outcome : Outcome} :
    s.entries = before ++ .request client op outcome :: behind →
      Gets g (before.map Entry.item) op outcome.isCancelled outcome
  /-- To the eyes of the clients the cancelled ones were never there. -/
  seen : (outcomes g s.queue).filterMap Outcome.answer? =
    (outcomes g (sequential (effective s.queue))).filterMap Outcome.answer?
  /-- What is cancelled was cancelled while it waited. -/
  cancelled_iff {place : Nat} : s.CancelledAt place ↔
    ∃ before behind, schedule = before ++ .cancel place :: behind ∧
      (serve g before).WaitsAt place
  /-- The queue is in the order of the submissions. -/
  submissions_eq : s.entries.filterMap Entry.submission? = schedule.filterMap Action.submission?
  /-- What is effective was carried out. -/
  carriedOut_eq : s.carriedOut.map (·.2) = effective s.queue
  /-- For each client this was in the order in which it submitted its operations. -/
  of_client (client : Nat) : (s.carriedOut.filter (·.1 = client)).Sublist
    ((schedule.filterMap Action.submission?).filter (·.1 = client))

/-- However clients submit and cancel operations and stop the owner, it comes to an end, and then
the operations have taken effect one after the other in the order of the queue. -/
theorem operations_serialised (g : Graph) (schedule : List Action) :
    (∃ n, (serve g (schedule ++ List.replicate n .proceed)).Settled) ∧
      ((serve g schedule).Settled → Serialised g schedule (serve g schedule)) := by
  refine ⟨by simpa only [serve_append] using (serve g schedule).settles, fun hsettled => ?_⟩
  have hrun := (going_serve g schedule).of_settled hsettled
  have hgraph : (serve g schedule).graph = g.after (effective (serve g schedule).queue) := by
    rw [← run_graph, hrun]
  have houtcomes := congrArg Prod.fst hrun
  exact {
    run_eq := hrun
    graph_eq := hgraph
    gets := gets_of_run houtcomes
    seen := outcomes_effective g _
    cancelled_iff := cancelledAt_serve
    submissions_eq := submissions_serve g schedule
    carriedOut_eq := carriedOut_of_run houtcomes
    of_client := fun client =>
      (submissions_serve g schedule ▸ carriedOut_sublist (serve g schedule).entries).filter _ }

/-- Two clients at one queue. The first cancels its second operation in time and its first one too
late, an operation of the other fails, and the last one comes behind the stop. -/
def crowded : List Action :=
  [.submit 1 (.newMap (.str "a")), .proceed, .submit 2 (.remove (.int 9)),
    .submit 1 (.setCode (.int 1) (.str "x")), .cancel 2, .cancel 0, .submit 2 .names, .proceed,
    .stop, .submit 1 .size, .proceed, .proceed, .proceed, .proceed, .proceed, .proceed]

theorem operations_serialised_crowded :
    (serve {} crowded).Settled ∧ Serialised {} crowded (serve {} crowded) ∧
      (serve {} crowded).carriedOut.map (·.1) = [1, 2, 2] ∧
      (serve {} crowded).graph.names = ["a"] ∧
      (serve {} crowded).entries.map Entry.isCancelled = [false, false, true, false, false, false] :=
  have hsettled : (serve {} crowded).Settled := ⟨rfl, .inl rfl⟩
  ⟨hsettled, (operations_serialised {} crowded).2 hsettled, rfl, rfl, rfl⟩

end BlockWorkbench.Owner
