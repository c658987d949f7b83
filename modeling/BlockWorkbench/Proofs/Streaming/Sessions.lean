import BlockWorkbench.Proofs.Streaming.Delivery

/-!
The sessions of a run. The worker takes its requests one after the other, and what it says is what
it says of each request, put together in the order of the requests. Whatever goes wrong in a session,
the next request is served, unless the request cannot even be reported: one that is given up and is
nested too deep breaks the worker off.
-/

namespace BlockWorkbench

/-! ### Clients that raise nothing but exceptions -/

namespace Stream

def Entry.failure? : Entry → Option Failure
  | .failure f => some f
  | .record _ => none

def Chunk.failure? : Chunk → Option Failure
  | .failure f => some f
  | .text _ => none

def Session.failures : Session → List Failure
  | .refused f => [f]
  | .opened entries => entries.filterMap Entry.failure?

def Reply.failures : Reply → List Failure
  | .failed f => [f]
  | .answered _ _ chunks => chunks.filterMap Chunk.failure?

/-- The failures that a client is still to meet with. -/
def Service.failures : Service → List Failure
  | .scripted sessions => sessions.flatMap Session.failures
  | .web replies => replies.flatMap Reply.failures

/-- Whether all that a client raises are exceptions. -/
def Client.RaisesExceptions (c : Client) : Prop :=
  ∀ f ∈ c.service.failures, f.kind.isException = true

theorem bodyText_failure {chunks : List Chunk} {body : String} {f : Failure}
    (h : bodyText chunks = (body, some f)) : f ∈ chunks.filterMap Chunk.failure? := by
  induction chunks generalizing body with
  | nil => cases h
  | cons chunk rest ih =>
      cases chunk with
      | failure g =>
          cases h
          simp [Chunk.failure?]
      | text s =>
          simp only [bodyText, Prod.mk.injEq] at h
          exact ih (Prod.ext rfl h.2)

/-- A body gives no failures but those of its chunks. -/
theorem failures_bodyEntries {chunks : List Chunk} {f : Failure}
    (h : f ∈ (bodyEntries chunks).filterMap Entry.failure?) :
    f ∈ chunks.filterMap Chunk.failure? := by
  unfold bodyEntries at h
  split at h
  · simp [Entry.failure?] at h
  · rename_i g hbody
    obtain rfl : f = g := by simpa [Entry.failure?, List.filterMap_append] using h
    exact bodyText_failure hbody

/-- No request that cannot be put together raises what is no exception. -/
theorem postOf_ne_escaped {folder : Url} {r : RangeRequest} {f : OpenFailure}
    (h : postOf folder r = .error f) : f ≠ .escaped := by
  rintro rfl
  obtain hurl | ⟨url, -, h⟩ := bind_eq_error.mp h
  · cases hfolder : folder.inFolder servicePath <;> simp [hfolder, Except.mapError] at hurl
  · obtain hbearer | ⟨bearer, -, h⟩ := bind_eq_error.mp h
    · unfold bearerOf at hbearer
      dsimp only at hbearer
      split at hbearer
      · cases hbearer
      · split at hbearer
        · cases hbearer
        · split at hbearer <;> cases hbearer
    · dsimp only at h
      split at h <;> cases h

theorem escaped_ofReply {endpoint : Json} {f : Failure} (h : f.kind.isException = true) :
    OpenFailure.ofReply endpoint f ≠ .escaped := by
  unfold OpenFailure.ofReply
  split_ifs <;> simp

namespace Client

variable {c : Client} (h : c.RaisesExceptions) (r : RangeRequest)

include h

/-- What such a client gives for a request, and what is left of it. -/
theorem RaisesExceptions.openSession :
    (c.openSession r).1 ≠ .error .escaped ∧
    (∀ entries, (c.openSession r).1 = .ok entries → ∀ f, .failure f ∈ entries →
      f.kind.isException = true) ∧
    (c.openSession r).2.RaisesExceptions := by
  unfold RaisesExceptions at h ⊢
  unfold Client.openSession
  cases hservice : c.service with
  | scripted sessions =>
      simp only [hservice, Service.failures] at h
      cases sessions with
      | nil => simp [openScripted, Service.failures]
      | cons session sessions =>
          rw [List.flatMap_cons, List.forall_mem_append] at h
          obtain ⟨hfirst, hrest⟩ := h
          cases session with
          | refused f =>
              have hkind : f.kind.isException = true := hfirst f (by simp [Session.failures])
              refine ⟨?_, by simp [openScripted], hrest⟩
              simp only [openScripted, List.head?_cons, if_pos hkind]
              split <;> simp
          | opened entries =>
              refine ⟨by simp [openScripted], ?_, hrest⟩
              rintro _ ⟨⟩ f hf
              exact hfirst f (List.mem_filterMap.mpr ⟨_, hf, rfl⟩)
  | web replies =>
      simp only [hservice, Service.failures] at h
      have hkept : ∀ f ∈ (Service.web replies.tail).failures, f.kind.isException = true := by
        intro f hf
        refine h f ?_
        obtain ⟨reply, hreply, hf⟩ := List.mem_flatMap.mp hf
        exact List.mem_flatMap.mpr ⟨reply, List.mem_of_mem_tail hreply, hf⟩
      have hfirst : ∀ f ∈ (replies.head?.getD .empty).failures, f.kind.isException = true := by
        cases replies with
        | nil => simp [Reply.empty, Reply.failures]
        | cons reply replies => exact fun f hf => h f (List.mem_flatMap.mpr ⟨reply, by simp, hf⟩)
      simp only [openWeb]
      split
      · exact ⟨by simp, by simp, by simpa [hservice, Service.failures] using h⟩
      split
      · exact ⟨by simp, by simp, by simpa [hservice, Service.failures] using h⟩
      split
      · rename_i f hpost
        exact ⟨by simpa using postOf_ne_escaped hpost, by simp,
          by simpa [hservice, Service.failures] using h⟩
      · refine ⟨?_, ?_, hkept⟩
        · cases hreply : replies.head?.getD .empty with
          | failed f =>
              have hkind : f.kind.isException = true := hfirst f (by simp [hreply, Reply.failures])
              simpa [sessionOf] using escaped_ofReply hkind
          | answered status headers chunks =>
              simp only [sessionOf]
              split <;> simp
        · intro entries hentries f hf
          cases hreply : replies.head?.getD .empty with
          | failed g => simp [hreply, sessionOf] at hentries
          | answered status headers chunks =>
              simp only [hreply, sessionOf] at hentries
              split at hentries
              · cases hentries
              · cases hentries
                refine hfirst f ?_
                rw [hreply]
                exact failures_bodyEntries (List.mem_filterMap.mpr ⟨_, hf, rfl⟩)

end Client

end Stream

namespace StreamingWorker

open Script (Value)
open BlockWorkbench.Stream (Entry OpenFailure)

/-! ### What clients are asked for -/

/-- The session that a request asks for, and what its records are for. -/
def asked? : Message Value → Option (Target × RangeRequest)
  | .runRange r => some (.passedOn, r)
  | .fetchBlock b =>
    match Slot.ofJson? b.cacheSlot, successor? b.blockNumber with
    | some slot, some stop => some (.cached b.cacheSlot slot, {
        start := b.blockNumber, stop, endpoint := b.endpoint, package := .str blockPackage
        moduleName := .str blockModule, token := b.token })
    | _, _ => none
  | _ => none

/-- A request with the session that the client opens for it, if it asks for one. -/
structure Opening where
  request : Message Value
  session : Option (Target × Except OpenFailure (List Entry))

/-- What a client opens for a request, and the client behind it. -/
def opening (c : Stream.Client) (request : Message Value) : Opening × Stream.Client :=
  match asked? request with
  | none => (⟨request, none⟩, c)
  | some (target, r) =>
    let (result, c) := c.openSession r
    (⟨request, some (target, result)⟩, c)

theorem request_opening (c : Stream.Client) (request : Message Value) :
    (opening c request).1.request = request := by
  unfold opening
  split <;> rfl

theorem opening_raisesExceptions {c : Stream.Client} (h : c.RaisesExceptions)
    (request : Message Value) : (opening c request).2.RaisesExceptions := by
  unfold opening
  split
  · exact h
  · exact (h.openSession _).2.2

/-- What a client opens for requests, one after the other, and the client in the end. -/
def openings (c : Stream.Client) : List (Message Value) → List Opening × Stream.Client
  | [] => ([], c)
  | request :: rest =>
    let (first, c) := opening c request
    let (later, final) := openings c rest
    (first :: later, final)

/-! ### What is said -/

/-- What is said in the end of a session, of which the entries are left that begin with the one
that ends it. Where that costs the request, `refused` is said. -/
inductive Closes (refused : List (Message Value)) : List Entry → List (Message Value) → Prop
  | ended : Closes refused [] []
  | interrupted {f : Stream.Failure} {rest : List Entry} : f.kind.isConnection ∨ f.kind.isHttp →
      Closes refused (.failure f :: rest) [.text (.str ("Stream interrupted: " ++ f.text))]
  | failed {f : Stream.Failure} {rest : List Entry} : ¬ (f.kind.isConnection ∨ f.kind.isHttp) →
      Closes refused (.failure f :: rest) refused
  | unreadable {record : Json} {rest : List Entry} : Unreadable record →
      Closes refused (.record record :: rest) refused

/-- What is said of a request, where `refused` is said of one that could not be dealt with. -/
inductive Block (refused : List (Message Value)) (s : Script.Store) :
    Opening → List (Message Value) → Prop
  | invalidSlot {b : BlockRequest} : Slot.ofJson? b.cacheSlot = none →
      Block refused s ⟨.fetchBlock b, none⟩ [.text (.str (.ofString
        ("Invalid cache slot " ++ b.cacheSlot.literal ++ " for block " ++ b.blockNumber.plain)))]
  | unusable {request : Message Value} :
      (∀ b, request = .fetchBlock b → Slot.ofJson? b.cacheSlot = none →
        b.blockNumber.isTooDeep ∨ b.cacheSlot.isTooDeep) →
      Block refused s ⟨request, none⟩ refused
  | dropped {request : Message Value} {target : Target} {text : String} :
      Block refused s ⟨request, some (target, .error (.dropped text))⟩
        [.text (.str ("Stream failed: " ++ text))]
  | broken {request : Message Value} {target : Target} :
      Block refused s ⟨request, some (target, .error .broken)⟩ refused
  | session {request : Message Value} {target : Target} {records : List Json} {rest : List Entry}
      {messages closing : List (Message Value)} :
      (∀ record ∈ records, ¬ Unreadable record) →
      List.Forall₂ (AnswersRecord s target) records messages → Closes refused rest closing →
      Block refused s ⟨request, some (target, .ok (records.map .record ++ rest))⟩
        (messages ++ closing)

variable {refused : List (Message Value)}

theorem AnswersRecord.mono {s t : Script.Store} (h : s.Extends t) {target : Target} {record : Json}
    {m : Message Value} (hm : AnswersRecord s target record m) :
    AnswersRecord t target record m := by
  cases hm with
  | value hread hx => exact .value hread (hx.mono h)
  | malformed hread => exact .malformed hread

theorem Block.mono {s t : Script.Store} (h : s.Extends t) {opening : Opening}
    {messages : List (Message Value)} (hm : Block refused s opening messages) :
    Block refused t opening messages := by
  cases hm with
  | invalidSlot hslot => exact .invalidSlot hslot
  | unusable hslot => exact .unusable hslot
  | dropped => exact .dropped
  | broken => exact .broken
  | session hreadable hanswers hcloses =>
      exact .session hreadable (hanswers.imp fun _ _ => .mono h) hcloses

/-! ### One session -/

/-- What a session gives are records that are answered, up to an entry that ends it. -/
theorem exists_last_entry (entries : List Entry) : ∃ (records : List Json) (rest : List Entry),
    entries = records.map .record ++ rest ∧ (∀ record ∈ records, ¬ Unreadable record) ∧
      (rest = [] ∨ (∃ f behind, rest = .failure f :: behind) ∨
        ∃ record behind, rest = .record record :: behind ∧ Unreadable record) := by
  induction entries with
  | nil => exact ⟨[], [], rfl, by simp, .inl rfl⟩
  | cons entry entries ih =>
      cases entry with
      | failure f => exact ⟨[], _, rfl, by simp, .inr (.inl ⟨f, entries, rfl⟩)⟩
      | record record =>
          by_cases hrecord : Unreadable record
          · exact ⟨[], _, rfl, by simp, .inr (.inr ⟨record, entries, rfl, hrecord⟩)⟩
          · obtain ⟨records, rest, rfl, hrecords, hrest⟩ := ih
            exact ⟨record :: records, rest, rfl, List.forall_mem_cons.mpr ⟨hrecord, hrecords⟩, hrest⟩

/-- What is said of a request that was left with `answer`, where `refused` is said if it was given
up. -/
def closed (refused : List (Message Value)) (answer : Answer) : List (Message Value) :=
  answer.messages ++ if answer.ending = .undone then refused else []

/-- A session answers its records up to the entry that ends it. -/
theorem receive_spec (w : StreamingWorker) (request : Message Value) (target : Target)
    {entries : List Entry} (h : ∀ f, .failure f ∈ entries → f.kind.isException = true) :
    let answer := w.receive target entries
    w.store.Extends answer.worker.store ∧ answer.worker.client = w.client ∧
      answer.ending ≠ .broken ∧
      Block refused answer.worker.store ⟨request, some (target, .ok entries)⟩
        (closed refused answer) := by
  obtain ⟨records, rest, rfl, hreadable, hrest⟩ := exists_last_entry entries
  obtain ⟨u, messages, hgrown, hclient, hanswers, hreceive⟩ := w.receive_append target hreadable rest
  -- The entry that ends the session leaves the worker as it is.
  obtain ⟨hworker, hending, hcloses⟩ : (u.receive target rest).worker = u ∧
      (u.receive target rest).ending ≠ .broken ∧
      Closes refused rest (closed refused (u.receive target rest)) := by
    obtain rfl | ⟨f, behind, rfl⟩ | ⟨record, behind, rfl, hrecord⟩ := hrest
    · exact ⟨rfl, by simp [receive], .ended⟩
    · have hkind := h f (by simp)
      by_cases hlost : f.kind.isConnection ∨ f.kind.isHttp
      · simp only [receive, if_pos hlost]
        exact ⟨rfl, by simp [Handled.say], .interrupted hlost⟩
      · simp only [receive, if_neg hlost, if_pos hkind]
        exact ⟨rfl, by simp [Handled.giveUp], .failed hlost⟩
    · rw [u.receive_unreadable target hrecord]
      exact ⟨rfl, by simp [Handled.giveUp], .unreadable hrecord⟩
  simp only [hreceive, hworker, closed, List.append_assoc]
  exact ⟨hgrown, hclient, hending, .session hreadable hanswers hcloses⟩

theorem stream_block (w : StreamingWorker) (hclient : w.client.RaisesExceptions)
    {request : Message Value} {target : Target} {r : RangeRequest}
    (h : asked? request = some (target, r)) :
    let answer := w.stream target r
    w.store.Extends answer.worker.store ∧
      answer.worker.client = (opening w.client request).2 ∧ answer.ending ≠ .broken ∧
      Block refused answer.worker.store (opening w.client request).1 (closed refused answer) := by
  obtain ⟨hescaped, hentries, -⟩ := hclient.openSession r
  simp only [opening, h, stream]
  cases hsession : w.client.openSession r with | mk result client =>
  rw [hsession] at hescaped hentries
  cases result with
  | error f =>
      cases f with
      | broken => exact ⟨.refl _, rfl, by simp [Handled.giveUp], .broken⟩
      | dropped text => exact ⟨.refl _, rfl, by simp [Handled.say], .dropped⟩
      | escaped => exact absurd rfl hescaped
  | ok entries => exact receive_spec { w with client } request target (hentries entries rfl)

theorem asked?_fetchBlock {b : BlockRequest} {slot : Slot} {stop : Json}
    (hslot : Slot.ofJson? b.cacheSlot = some slot) (hstop : successor? b.blockNumber = some stop) :
    asked? (.fetchBlock b) = some (.cached b.cacheSlot slot, {
      start := b.blockNumber, stop, endpoint := b.endpoint, package := .str blockPackage
      moduleName := .str blockModule, token := b.token }) := by
  simp only [asked?, hslot, hstop]

theorem handle_block (refused : List (Message Value)) (w : StreamingWorker)
    (hclient : w.client.RaisesExceptions) (request : Message Value) :
    let answer := w.handle request
    w.store.Extends answer.worker.store ∧
      answer.worker.client = (opening w.client request).2 ∧ answer.ending ≠ .broken ∧
      Block refused answer.worker.store (opening w.client request).1 (closed refused answer) := by
  cases request with
  | runRange r => exact w.stream_block hclient rfl
  | fetchBlock b =>
      cases hslot : Slot.ofJson? b.cacheSlot with
      | none =>
          simp only [handle, fetchBlock, hslot, opening, asked?]
          split
          · rename_i hdeep
            exact ⟨.refl _, rfl, by simp [Handled.giveUp], .unusable fun b' hb' _ => by
              cases hb'
              simpa using hdeep⟩
          · exact ⟨.refl _, rfl, by simp [Handled.say], .invalidSlot hslot⟩
      | some slot =>
          cases hstop : successor? b.blockNumber with
          | none =>
              simp only [handle, fetchBlock, hslot, hstop, opening, asked?]
              refine ⟨.refl _, rfl, by simp [Handled.giveUp], .unusable fun b' hb' hinvalid => ?_⟩
              cases hb'
              simp [hslot] at hinvalid
          | some stop =>
              simp only [handle, fetchBlock, hslot, hstop]
              exact w.stream_block hclient (asked?_fetchBlock hslot hstop)
  | evaluate _ | evaluateFunction _ _ | resetScope _ _ | build | text _ | json _
  | blockCacheUpdated _ _ | cleared | shutdown | cacheRef _ | other _ =>
      refine ⟨.refl _, rfl, by simp [handle, Handled.giveUp], .unusable fun b hb => ?_⟩
      cases hb

/-- Whether a request cannot be dealt with and is nested too deep to be reported. -/
def Unreportable (w : StreamingWorker) (request : Message Value) : Prop :=
  (w.handle request).ending = .undone ∧
    request.isTooDeep (w.handle request).worker.store = true

/-- With a client that raises nothing but exceptions, only a request that cannot be reported breaks
the worker off. -/
theorem ending_step_eq_broken {w : StreamingWorker} (hclient : w.client.RaisesExceptions)
    {request : Message Value} : (step w request).ending = .broken ↔ w.Unreportable request := by
  obtain ⟨-, -, hending, -⟩ := w.handle_block [] hclient request
  rw [step, Handled.ending_reported_eq_broken, or_iff_right hending]
  rfl

/-- A request is answered by its block, whatever goes wrong. Where it cannot be reported, the block
lacks the report. -/
theorem step_block (w : StreamingWorker) (hclient : w.client.RaisesExceptions)
    (request : Message Value) :
    let answer := step w request
    w.store.Extends answer.worker.store ∧
      answer.worker.client = (opening w.client request).2 ∧
      (¬w.Unreportable request →
        Block [refusal request] answer.worker.store (opening w.client request).1 answer.messages) ∧
      (w.Unreportable request →
        Block [] answer.worker.store (opening w.client request).1 answer.messages) := by
  obtain ⟨hgrown, hkept, -, -⟩ := w.handle_block [] hclient request
  simp only [worker_step, messages_step]
  refine ⟨hgrown, hkept, fun hreported => ?_, fun hunreported => ?_⟩
  · obtain ⟨-, -, -, hblock⟩ := w.handle_block [refusal request] hclient request
    by_cases hundone : (w.handle request).ending = .undone
    · have hshallow : request.isTooDeep (w.handle request).worker.store = false := by
        simpa [Unreportable, hundone] using hreported
      simpa [closed, hundone, hshallow] using hblock
    · simpa [closed, hundone] using hblock
  · obtain ⟨-, -, -, hblock⟩ := w.handle_block [] hclient request
    simpa [closed, hunreported.2] using hblock

/-! ### A run -/

theorem transcript_blocks (w : StreamingWorker) (hclient : w.client.RaisesExceptions)
    {requests : List (Message Value)} (hlasts : Handled.Lasts step w requests) :
    w.store.Extends (Handled.after step w requests).store ∧
      (Handled.after step w requests).client = (openings w.client requests).2 ∧
      (Handled.after step w requests).client.RaisesExceptions ∧
      List.Forall₂ (fun o => Block [refusal o.request] (Handled.after step w requests).store o)
        (openings w.client requests).1
        ((Handled.transcript step w requests).map (·.messages)) := by
  induction requests generalizing w with
  | nil => exact ⟨.refl _, rfl, hclient, .nil⟩
  | cons request rest ih =>
      obtain ⟨hkept, hlasts⟩ := Handled.lasts_cons.mp hlasts
      obtain ⟨hgrown, hnext, hblock, -⟩ := w.step_block hclient request
      have hclient' := hnext ▸ opening_raisesExceptions hclient request
      obtain ⟨hlater, hfinal, hlast, hblocks⟩ := ih (step w request).worker hclient' hlasts
      rw [hnext] at hfinal hblocks
      have hfirst := hblock ((ending_step_eq_broken hclient).not.mp hkept)
      have hopening : Block [refusal (opening w.client request).1.request]
          (step w request).worker.store (opening w.client request).1 (step w request).messages := by
        rwa [request_opening]
      exact ⟨hgrown.trans hlater, hfinal, hlast, .cons (hopening.mono hlater) hblocks⟩

/-- With a client that raises nothing but exceptions, a run up to a shutdown says one block for each
request before it, in order and one behind the other, with what the client opens for the requests in
the same order, and ends because of the shutdown, exactly if none of these requests is given up that
is nested too deep to be reported. The first one that is ends the run: its block lacks the report,
and what stands behind it is not taken up. -/
theorem run_blocks_iff (w : StreamingWorker) (hclient : w.client.RaisesExceptions)
    (requests behind : List (Message Value))
    (h : ∀ request ∈ requests, request.isShutdown = false) :
    let Breaking (before : List (Message Value)) (request : Message Value) : Prop :=
      (Handled.after step w before).Unreportable request
    ((∃ worker records blocks,
        w.run (requests ++ .shutdown :: behind) =
          ({ worker, messages := blocks.flatten, records, ending := .done }, behind) ∧
        worker.client = (openings w.client requests).2 ∧
        List.Forall₂ (fun o => Block [refusal o.request] worker.store o)
          (openings w.client requests).1 blocks) ↔
      ∀ before request later, requests = before ++ request :: later →
        ¬Breaking before request) ∧
    ∀ before request later, requests = before ++ request :: later →
      (∀ earlier next rest, before = earlier ++ next :: rest → ¬Breaking earlier next) →
      Breaking before request →
      ∃ worker records blocks last,
        w.run (requests ++ .shutdown :: behind) =
          ({ worker, messages := blocks.flatten ++ last, records, ending := .broken },
            later ++ .shutdown :: behind) ∧
        List.Forall₂ (fun o => Block [refusal o.request] worker.store o)
          (openings w.client before).1 blocks ∧
        Block [] worker.store (opening (openings w.client before).2 request).1 last := by
  intro Breaking
  have hlasts (before : List (Message Value)) : Handled.Lasts step w before ↔
      ∀ earlier next rest, before = earlier ++ next :: rest → ¬Breaking earlier next := by
    constructor
    · rintro hbefore earlier next rest rfl
      obtain ⟨-, -, hexceptions, -⟩ := w.transcript_blocks hclient hbefore.of_append
      exact (ending_step_eq_broken hexceptions).not.mp (Handled.lasts_iff.mp hbefore _ _ _ rfl)
    · intro hkept
      obtain hall | ⟨earlier, next, rest, hbefore, hearlier, hends⟩ :=
        Handled.lasts_or_broken step w before
      · exact hall
      · obtain ⟨-, -, hexceptions, -⟩ := w.transcript_blocks hclient hearlier
        exact absurd ((ending_step_eq_broken hexceptions).mp hends) (hkept _ _ _ hbefore)
  have hbroken {before : List (Message Value)} {request : Message Value}
      {later : List (Message Value)} (hrequests : requests = before ++ request :: later)
      (hbefore : Handled.Lasts step w before) (hbreaks : Breaking before request) :
      ∃ worker records blocks last,
        w.run (requests ++ .shutdown :: behind) =
          ({ worker, messages := blocks.flatten ++ last, records, ending := .broken },
            later ++ .shutdown :: behind) ∧
        List.Forall₂ (fun o => Block [refusal o.request] worker.store o)
          (openings w.client before).1 blocks ∧
        Block [] worker.store (opening (openings w.client before).2 request).1 last := by
    subst hrequests
    obtain ⟨-, hkept, hexceptions, hblocks⟩ := w.transcript_blocks hclient hbefore
    have hending := (ending_step_eq_broken hexceptions).mpr hbreaks
    obtain ⟨hgrown, -, -, hlast⟩ := step_block _ hexceptions request
    have hrun := Handled.run_broken (fun r hr => h r (List.mem_append_left _ hr)) hbefore
      (h request (by simp)) hending (later ++ .shutdown :: behind)
    rw [← List.cons_append, ← List.append_assoc] at hrun
    exact ⟨(step _ request).worker, _, _, _, by rw [run, hrun, hending, List.flatMap_def],
      hblocks.imp fun _ _ => .mono hgrown, hkept ▸ hlast hbreaks⟩
  refine ⟨⟨?_, fun hkept => ?_⟩, fun before request later hrequests hbefore =>
    hbroken hrequests ((hlasts before).mpr hbefore)⟩
  · rintro ⟨worker, records, blocks, hrun, -, -⟩ before request later hrequests hbreaks
    obtain hall | ⟨earlier, next, rest, hrequests, hearlier, hends⟩ :=
      Handled.lasts_or_broken step w requests
    · exact (hlasts requests).mp hall before request later hrequests hbreaks
    · obtain ⟨-, -, hexceptions, -⟩ := w.transcript_blocks hclient hearlier
      obtain ⟨_, _, _, _, hstopped, -, -⟩ :=
        hbroken hrequests hearlier ((ending_step_eq_broken hexceptions).mp hends)
      simp [hrun] at hstopped
  · have hall := (hlasts requests).mpr hkept
    obtain ⟨-, hfinal, -, hblocks⟩ := w.transcript_blocks hclient hall
    exact ⟨_, _, _, by rw [run, Handled.run_shutdown h hall, List.flatMap_def], hfinal, hblocks⟩

/-- A worker whose first session is refused, whose second breaks off, and whose third fails in a
way that nobody expects. -/
def unluckyWorker : StreamingWorker where
  client := { service := .scripted [
    .refused ⟨.connectionRefused, "no"⟩,
    .opened [.record (.str "1"), .record (.str "?"), .failure ⟨.readFailed, "gone"⟩],
    .opened [.record (.list []), .failure ⟨.key, "lost"⟩]] }

/-- Three requests that ask for sessions, and two that do not. -/
def mixedRequests : List (Message Value) := [
  rangeOfTwo, .fetchBlock ⟨.int 1, .str "https://example.org", .null, .int 9⟩, rangeOfTwo,
  .other .null, .fetchBlock ⟨.int 1, .str "https://example.org", .null, .int 2⟩]

theorem run_blocks_mixed :
    unluckyWorker.client.RaisesExceptions ∧
      (∀ request ∈ mixedRequests, request.isShutdown = false) ∧
      (openings unluckyWorker.client mixedRequests).1.map (fun o => o.session.isSome) =
        [true, false, true, false, true] ∧
      ∃ worker records blocks,
        unluckyWorker.run (mixedRequests ++ .shutdown :: [rangeOfTwo]) =
          ({ worker, messages := blocks.flatten, records, ending := .done }, [rangeOfTwo]) ∧
        worker.client = (openings unluckyWorker.client mixedRequests).2 ∧
        List.Forall₂ (fun o => Block [refusal o.request] worker.store o)
          (openings unluckyWorker.client mixedRequests).1 blocks := by
  have hclient : unluckyWorker.client.RaisesExceptions := by
    intro f hf
    simp only [unluckyWorker, Stream.Service.failures, Stream.Session.failures, List.flatMap_cons,
      List.flatMap_nil, Entry.failure?, List.filterMap_cons, List.filterMap_nil, List.mem_append,
      List.mem_cons, List.not_mem_nil, or_false] at hf
    obtain rfl | rfl | rfl := hf <;> rfl
  have hrequests : ∀ request ∈ mixedRequests, request.isShutdown = false := by
    simp [mixedRequests, rangeOfTwo, Message.isShutdown]
  refine ⟨hclient, hrequests, rfl,
    (unluckyWorker.run_blocks_iff hclient mixedRequests [rangeOfTwo] hrequests).1.mpr ?_⟩
  rintro before request later hrequests ⟨-, hdeep⟩
  have hmem : request ∈ mixedRequests := by simp [hrequests]
  simp only [mixedRequests, List.mem_cons, List.not_mem_nil, or_false] at hmem
  obtain rfl | rfl | rfl | rfl | rfl := hmem <;> exact Bool.false_ne_true hdeep

/-- A request that no worker knows and that is nested too deep, and one for a block of a number that
is nested too deep, are left without an answer, and so is every request behind them. -/
theorem deep_request_ends_run :
    ({} : Stream.Client).RaisesExceptions ∧
    (∃ worker, run { client := {} } [.other (Json.nested 5000), rangeOfTwo, .shutdown] =
      ({ worker, ending := .broken }, [rangeOfTwo, .shutdown])) ∧
    ∃ worker, run { client := {} }
        [.fetchBlock ⟨Json.nested 5000, .str "https://example.org", .null, .int 1⟩, rangeOfTwo,
          .shutdown] =
      ({ worker, ending := .broken }, [rangeOfTwo, .shutdown]) := by
  have hdeep : (Json.nested 5000).isTooDeep = true := Json.isTooDeep_nested (by decide)
  have hnumber : successor? (Json.nested 5000) = none := rfl
  have hbroken {w : StreamingWorker} {request : Message Value}
      (hrequest : request.isShutdown = false) (hgivenUp : w.handle request = Handled.giveUp w)
      (hparts : request.parts.any Json.isTooDeep = true) (rest : List (Message Value)) :
      run w (request :: rest) = ({ worker := w, ending := .broken }, rest) := by
    have hunreportable : request.isTooDeep w.store = true := by
      simp [Message.isTooDeep, hparts]
    simp [run, Handled.run, hrequest, step, hgivenUp, Handled.giveUp, Handled.reported,
      Message.failureRecord?, hunreportable]
  refine ⟨by simp [Stream.Client.RaisesExceptions, Stream.Service.failures],
    ⟨_, hbroken rfl rfl ?_ _⟩,
    _, hbroken rfl ?_ ?_ _⟩
  · simp [Message.parts, hdeep]
  · have hslot : Slot.ofJson? (.int 1) = some .first := rfl
    simp only [handle, fetchBlock, hslot, hnumber]
  · simp [Message.parts, hdeep]

end StreamingWorker

end BlockWorkbench
