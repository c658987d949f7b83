import BlockWorkbench.Proofs.Streaming.Delivery

/-!
The cache and what is said about it. Every write to the cache is announced and nothing else is, so
the announced writes, carried out in order, turn the cache at the start of a run into that at its
end, and a call that refers to a slot gets the value that was announced last.
-/

namespace BlockWorkbench

namespace Message

variable {α : Type}

/-- Whether a message that announces a write names a slot that exists. -/
def NamesSlot : Message α → Prop
  | blockCacheUpdated slot _ => (Slot.ofJson? slot).isSome
  | _ => True

/-- The value that a message announces for the slot that `n` addresses. -/
def announced? (n : Json) : Message α → Option α
  | blockCacheUpdated slot v =>
    if (Slot.ofJson? slot).isSome ∧ Slot.ofJson? slot = Slot.ofJson? n then some v else none
  | _ => none

end Message

namespace BlockCache

variable {α : Type}

/-- The cache after a message: an announced write is carried out, all else changes nothing. -/
def hear (c : BlockCache α) : Message α → BlockCache α
  | .blockCacheUpdated slot v => (c.write slot v).2.1
  | _ => c

/-- The value announced last for the slot that `n` addresses. -/
def lastAnnounced? (n : Json) (messages : List (Message α)) : Option α :=
  (messages.filterMap (Message.announced? n)).getLast?

theorem read_write (c : BlockCache α) (nothing v : α) (slot n : Json) :
    (((c.write slot v).2.1).read nothing n).1 =
      ((Message.blockCacheUpdated slot v).announced? n).getD (c.read nothing n).1 := by
  simp only [write, read, Message.announced?]
  cases hslot : Slot.ofJson? slot with
  | none => simp
  | some s =>
      cases hn : Slot.ofJson? n with
      | none => simp
      | some t =>
          by_cases hst : s = t
          · simp [hst]
          · simp [hst, Ne.symm hst]

theorem read_hear (c : BlockCache α) (nothing : α) (n : Json) (m : Message α) :
    ((c.hear m).read nothing n).1 = (m.announced? n).getD (c.read nothing n).1 := by
  cases m with
  | blockCacheUpdated slot v => exact c.read_write nothing v slot n
  | evaluate _ | evaluateFunction _ _ | resetScope _ _ | build | runRange _ | fetchBlock _ | text _
  | json _ | cleared | shutdown | cacheRef _ | other _ => rfl

/-- A slot holds what was announced for it last, or else what it held before. -/
theorem read_foldl_hear (c : BlockCache α) (nothing : α) (n : Json) (messages : List (Message α)) :
    ((messages.foldl hear c).read nothing n).1 =
      (lastAnnounced? n messages).getD (c.read nothing n).1 := by
  induction messages using List.reverseRecOn with
  | nil => rfl
  | append_singleton messages m ih =>
      rw [List.foldl_append, List.foldl_cons, List.foldl_nil, read_hear, ih, lastAnnounced?,
        lastAnnounced?, List.filterMap_append]
      cases hm : m.announced? n <;> simp [hm]

theorem read_empty (nothing : α) (n : Json) : ((empty nothing).read nothing n).1 = nothing := by
  unfold read
  split
  · rename_i s _
    cases s <;> rfl
  · rfl

end BlockCache

namespace ExecutionWorker

open Script (Value)

/-- What arguments give does not depend on where they stand. -/
theorem readArguments_index (cache : BlockCache Value) (name : Json) (i j : Nat)
    (items : List Argument) :
    (readArguments cache name i items).1 = (readArguments cache name j items).1 := by
  induction items generalizing i j with
  | nil => rfl
  | cons item rest ih =>
      have hrest := ih (i + 1) (j + 1)
      cases item with
      | cached slot =>
          simp only [readArguments, hrest]
          split <;> rfl
      | given text =>
          simp only [readArguments]
          split
          · simp only [hrest]
          · split
            · rfl
            · exact hrest

/-- An argument that refers to a slot is replaced by what the slot holds, between what the arguments
before and behind it give. Only what is nested too deep to be written down refers to none. -/
theorem readArguments_cached (cache : BlockCache Value) (name n : Json) (i : Nat)
    {before behind : List Argument} {as bs : List Script.Given}
    (hbefore : (readArguments cache name 0 before).1 = .ok as)
    (hbehind : (readArguments cache name 0 behind).1 = .ok bs) :
    (readArguments cache name i (before ++ .cached n :: behind)).1 =
      if n.isTooDeep then .error () else .ok (as ++ .value (cache.read .none n).1 :: bs) := by
  induction before generalizing i as with
  | nil =>
      cases hbefore
      simp only [List.nil_append, readArguments]
      split
      · rfl
      · simp only [readArguments_index cache name (i + 1) 0, hbehind, ok_map]
  | cons item rest ih =>
      rw [List.cons_append]
      cases item with
      | cached slot =>
          simp only [readArguments, readArguments_index cache name (0 + 1) 0] at hbefore ⊢
          split at hbefore
          · cases hbefore
          · rename_i hslot
            obtain ⟨as', hrest, rfl⟩ := map_eq_ok.mp hbefore
            simp only [if_neg hslot, ih (i + 1) hrest]
            split <;> rfl
      | given text =>
          simp only [readArguments, readArguments_index cache name (0 + 1) 0] at hbefore ⊢
          split at hbefore
          · obtain ⟨as', hrest, rfl⟩ := map_eq_ok.mp hbefore
            simp only [ih (i + 1) hrest]
            split <;> rfl
          · split at hbefore
            · cases hbefore
            · rename_i hkind
              simp only [if_neg hkind, ih (i + 1) hbefore]

end ExecutionWorker

namespace StreamingWorker

open Script (Value)

/-- An answer leaves the cache that its messages turn `c` into, and announces no slot that does not
exist. -/
structure InStep (c : BlockCache Value) (answer : Answer) : Prop where
  cache : answer.worker.cache = answer.messages.foldl BlockCache.hear c
  slots : ∀ m ∈ answer.messages, m.NamesSlot

/-- Whether the slot of a target is the one that was asked for. -/
def Target.Addressed : Target → Prop
  | passedOn => True
  | cached given slot => Slot.ofJson? given = some slot

variable {c : BlockCache Value} (w : StreamingWorker)

theorem inStep_say (line : Points) : InStep w.cache (Handled.say w line) :=
  ⟨rfl, by simp [Handled.say, Message.NamesSlot]⟩

theorem inStep_giveUp : InStep w.cache (Handled.giveUp w) := ⟨rfl, by simp [Handled.giveUp]⟩

theorem inStep_breakOff : InStep w.cache (Handled.breakOff w) := ⟨rfl, by simp [Handled.breakOff]⟩

theorem InStep.followedBy {first later : Answer} (h : InStep c first)
    (hlater : InStep first.worker.cache later) : InStep c (first.followedBy later) where
  cache := by
    rw [Handled.followedBy, List.foldl_append, ← h.cache]
    exact hlater.cache
  slots m hm := by
    obtain hm | hm := List.mem_append.mp hm
    · exact h.slots m hm
    · exact hlater.slots m hm

/-- What is reported of a request has nothing to do with the cache. -/
theorem InStep.step {w : StreamingWorker} {request : Message Value}
    (h : InStep w.cache (w.handle request)) : InStep w.cache (w.step request) where
  cache := by
    rw [worker_step, messages_step, h.cache, List.foldl_append]
    split <;> rfl
  slots := by
    rw [messages_step, List.forall_mem_append]
    refine ⟨h.slots, ?_⟩
    split <;> simp [refusal, Message.NamesSlot]

/-- A value that is kept is announced for the slot that it was kept in. -/
theorem inStep_deliver {target : Target} (htarget : target.Addressed) (v : Json Points) :
    (w.deliver target v).2.cache = w.cache.hear (w.deliver target v).1 ∧
      (w.deliver target v).1.NamesSlot := by
  cases target with
  | passedOn => exact ⟨rfl, trivial⟩
  | cached given slot =>
      have hslot : Slot.ofJson? given = some slot := htarget
      simp [deliver, BlockCache.hear, BlockCache.write, Message.NamesSlot, hslot]

theorem inStep_receive {target : Target} (htarget : target.Addressed)
    (entries : List Stream.Entry) : InStep w.cache (w.receive target entries) := by
  induction entries generalizing w with
  | nil => exact ⟨rfl, by simp [receive]⟩
  | cons entry rest ih =>
      cases entry with
      | failure f =>
          simp only [receive]
          split
          · exact inStep_say w _
          · split
            · exact inStep_giveUp w
            · exact inStep_breakOff w
      | record record =>
          simp only [receive]
          split
          · rename_i v _
            obtain ⟨hcache, hslot⟩ := inStep_deliver w htarget v
            have hrest := ih (w.deliver target v).2
            rw [hcache] at hrest
            exact ⟨hrest.cache, List.forall_mem_cons.mpr ⟨hslot, hrest.slots⟩⟩
          · split
            · exact inStep_giveUp w
            · exact ⟨(ih w).cache, List.forall_mem_cons.mpr ⟨trivial, (ih w).slots⟩⟩

theorem inStep_stream {target : Target} (htarget : target.Addressed) (r : RangeRequest) :
    InStep w.cache (w.stream target r) := by
  simp only [stream]
  split
  · exact ⟨rfl, (inStep_giveUp w).slots⟩
  · exact ⟨rfl, (inStep_breakOff w).slots⟩
  · exact ⟨rfl, (inStep_say w _).slots⟩
  · exact ⟨(inStep_receive _ htarget _).cache, (inStep_receive _ htarget _).slots⟩

theorem inStep_step (request : Message Value) : InStep w.cache (step w request) := by
  refine InStep.step ?_
  cases request with
  | runRange r => exact inStep_stream w (show Target.passedOn.Addressed from trivial) r
  | fetchBlock b =>
      simp only [handle, fetchBlock]
      split
      · split
        · exact inStep_giveUp w
        · exact ⟨rfl, (inStep_say w _).slots⟩
      · rename_i slot hslot
        split
        · exact inStep_giveUp w
        · exact inStep_stream w (show (Target.cached b.cacheSlot slot).Addressed from hslot) _
  | evaluate _ | evaluateFunction _ _ | resetScope _ _ | build | text _ | json _
  | blockCacheUpdated _ _ | cleared | shutdown | cacheRef _ | other _ => exact inStep_giveUp w

theorem inStep_run (requests : List (Message Value)) : InStep w.cache (run w requests).1 := by
  induction requests generalizing w with
  | nil => exact inStep_giveUp w
  | cons request rest ih =>
      simp only [run, Handled.run]
      split
      · exact ⟨rfl, by simp⟩
      · split
        · exact inStep_step w request
        · exact (inStep_step w request).followedBy (ih _)

/-! ### What keeps the cache -/

theorem cache_receive_passedOn (entries : List Stream.Entry) :
    (w.receive .passedOn entries).worker.cache = w.cache := by
  induction entries generalizing w with
  | nil => rfl
  | cons entry rest ih =>
      cases entry with
      | failure f =>
          simp only [receive]
          split
          · rfl
          · split <;> rfl
      | record record =>
          simp only [receive]
          split
          · exact ih _
          · split
            · rfl
            · exact ih w

/-- A range leaves the cache as it was, whatever its records are and however it ends. -/
theorem cache_step_runRange (r : RangeRequest) : (step w (.runRange r)).worker.cache = w.cache := by
  simp only [worker_step, handle, stream]
  split
  · rfl
  · rfl
  · rfl
  · exact cache_receive_passedOn _ _

/-- A session that does not open leaves the cache as it was. -/
theorem cache_stream_refused (target : Target) {r : RangeRequest} {f : Stream.OpenFailure}
    (h : (w.client.openSession r).1 = .error f) : (w.stream target r).worker.cache = w.cache := by
  simp only [stream, h]
  cases f <;> rfl

/-- Behind a record that is not JSON, a session either ends or goes on as if the record were not
there. -/
theorem worker_receive_malformed (target : Target) {record : Json} {f : Fault}
    (h : record.readText = .error f) (rest : List Stream.Entry) :
    (w.receive target (.record record :: rest)).worker =
      if f.kind = .recursion then w else (w.receive target rest).worker := by
  simp only [receive, h]
  split <;> rfl

/-- A slot that does not exist leaves the worker as it was, so no session is opened for it. -/
theorem worker_step_invalid {b : BlockRequest} (h : Slot.ofJson? b.cacheSlot = none) :
    (step w (.fetchBlock b)).worker = w := by
  simp only [worker_step, handle, fetchBlock, h]
  split <;> rfl

end StreamingWorker

open Script (Value)

namespace BlockCache

theorem read_number {α : Type} (c : BlockCache α) (nothing : α) (s : Slot) :
    (c.read nothing (.int s.number)).1 = c.get s := by
  cases s <;> rfl

/-- The cache after messages, slot by slot. -/
theorem snapshot_foldl_hear (c : BlockCache Value) (messages : List (Message Value)) :
    (messages.foldl hear c).snapshot =
      c.snapshot.map fun e => (e.1, (lastAnnounced? (.int e.1) messages).getD e.2) := by
  simp only [snapshot, List.map_map]
  refine List.map_congr_left fun s _ => ?_
  rw [← read_number _ .none s, read_foldl_hear, read_number]
  rfl

end BlockCache

namespace StreamingWorker

variable (w : StreamingWorker)

/-- The cache and what is said about it never drift apart. Whatever is asked for and whatever the
sessions give, a run leaves the cache that it started with, changed by the announced writes in their
order, and each of these names a slot that exists. Nothing else writes to it. A call that is handled
next gets, for a slot, the value that the run announced last for it; only a call that refers to what
is nested too deep to be written down is not made. -/
theorem cache_follows_announcements (requests : List (Message Value)) :
    let answer := (run w requests).1
    answer.worker.cache = answer.messages.foldl BlockCache.hear w.cache ∧
    answer.worker.cache.snapshot = w.cache.snapshot.map (fun e =>
      (e.1, (BlockCache.lastAnnounced? (.int e.1) answer.messages).getD e.2)) ∧
    (∀ m ∈ answer.messages, m.NamesSlot) ∧
    (∀ (u : StreamingWorker) (r : RangeRequest),
      (step u (.runRange r)).worker.cache = u.cache) ∧
    (∀ (u : StreamingWorker) (target : Target) (r : RangeRequest) (f : Stream.OpenFailure),
      (u.client.openSession r).1 = .error f → (u.stream target r).worker.cache = u.cache) ∧
    (∀ (u : StreamingWorker) (target : Target) (record : Json) (f : Fault)
      (rest : List Stream.Entry), record.readText = .error f →
      (u.receive target (.record record :: rest)).worker =
        if f.kind = .recursion then u else (u.receive target rest).worker) ∧
    (∀ (u : StreamingWorker) (b : BlockRequest), Slot.ofJson? b.cacheSlot = none →
      (step u (.fetchBlock b)).worker = u) ∧
    ∀ (e : ExecutionWorker) (fuel : Nat) (name n : Json) (before behind : List Argument)
      (as bs : List Script.Given),
      (ExecutionWorker.readArguments answer.worker.cache name 0 before).1 = .ok as →
      (ExecutionWorker.readArguments answer.worker.cache name 0 behind).1 = .ok bs →
      let v := (BlockCache.lastAnnounced? n answer.messages).getD (w.cache.read .none n).1
      let called :=
        if n.isTooDeep then .giveUp e else e.callWith fuel name (as ++ .value v :: bs)
      (w.cache = .empty .none → (w.cache.read .none n).1 = .none) ∧
      ∃ warnings records,
        e.handle fuel answer.worker.cache
            (.evaluateFunction name (.listed (before ++ .cached n :: behind))) =
          { called with
            messages := warnings ++ called.messages, records := records ++ called.records } := by
  intro answer
  have hstep := inStep_run w requests
  have hcache : answer.worker.cache = answer.messages.foldl BlockCache.hear w.cache := hstep.cache
  refine ⟨hcache, ?_, hstep.slots, cache_step_runRange,
    fun u target r f => u.cache_stream_refused target,
    fun u target record f rest h => u.worker_receive_malformed target h rest,
    fun u b => u.worker_step_invalid, ?_⟩
  · rw [hcache, BlockCache.snapshot_foldl_hear]
  · intro e fuel name n before behind as bs hbefore hbehind v called
    refine ⟨fun h => by rw [h, BlockCache.read_empty], ?_⟩
    have hread := ExecutionWorker.readArguments_cached _ name n 0 hbefore hbehind
    have hvalue : (answer.worker.cache.read .none n).1 = v := by
      rw [hcache, BlockCache.read_foldl_hear]
    rw [hvalue] at hread
    simp only [ExecutionWorker.handle, ExecutionWorker.evaluateFunction,
      ExecutionWorker.argumentsOf]
    rw [hread]
    simp only [called]
    cases n.isTooDeep <;> exact ⟨_, _, rfl⟩

/-- A client whose first session gives a number and a text that is no JSON, and which refuses the
second. -/
def briefClient : Stream.Client where
  service := .scripted [
    .opened [.record (.str "7"), .record (.str "?")], .refused ⟨.connection, "no route"⟩]

def blockFor (slot : Json) : BlockRequest where
  blockNumber := .int 5
  endpoint := .str "https://example.org"
  cacheSlot := slot

/-- Requests for the first slot, for one that does not exist and for the first again, and one that
no worker knows. -/
def fetches : List (Message Value) := [
  .fetchBlock (blockFor (.bool true)), .fetchBlock (blockFor (.int 9)),
  .fetchBlock (blockFor (.int 1)), .other .null]

/-- A client that refuses the only session. -/
def refusingClient : Stream.Client where
  service := .scripted [.refused ⟨.connection, "no route"⟩]

theorem cache_follows_fetches :
    let answer := (run { client := briefClient } fetches).1
    BlockCache.lastAnnounced? (.int 1) answer.messages = some (.int 7) ∧
    answer.worker.cache.snapshot = [(1, .int 7), (2, .none), (3, .none), (4, .none)] ∧
    (∃ f, (refusingClient.openSession ⟨.int 1, .int 2, .null, .null, .null, .null⟩).1 = .error f ∧
      (stream { client := refusingClient } .passedOn
        ⟨.int 1, .int 2, .null, .null, .null, .null⟩).worker.cache = .empty .none) ∧
    (∃ f, Json.readText (.str "?") = .error f ∧
      (receive { client := briefClient } .passedOn [.record (.str "?")]).worker =
        if f.kind = .recursion then { client := briefClient }
        else (receive { client := briefClient } .passedOn []).worker) ∧
    (Slot.ofJson? (blockFor (.int 9)).cacheSlot = none ∧
      (step { client := briefClient } (.fetchBlock (blockFor (.int 9)))).worker =
        { client := briefClient }) ∧
    ∃ warnings records,
      let called := ExecutionWorker.callWith {} 10 (.str "f") [.data (.int 3), .value (.int 7)]
      ExecutionWorker.handle {} 10 answer.worker.cache
          (.evaluateFunction (.str "f") (.listed [.given (.str "3"), .cached (.int 1)])) =
        { called with
          messages := warnings ++ called.messages, records := records ++ called.records } := by
  intro answer
  obtain ⟨-, hsnapshot, -, -, hrefused, hmalformed, hinvalid, hcall⟩ :=
    cache_follows_announcements { client := briefClient } fetches
  have hlast : BlockCache.lastAnnounced? (.int 1) answer.messages = some (.int 7) := rfl
  have hslot : Slot.ofJson? (blockFor (.int 9)).cacheSlot = none := rfl
  refine ⟨hlast, hsnapshot, ⟨_, rfl, hrefused _ _ _ _ rfl⟩, ⟨_, rfl, hmalformed _ _ _ _ _ rfl⟩,
    ⟨hslot, hinvalid _ _ hslot⟩, ?_⟩
  obtain ⟨-, warnings, records, h⟩ :=
    hcall {} 10 (.str "f") (.int 1) [.given (.str "3")] [] [.data (.int 3)] [] rfl rfl
  exact ⟨warnings, records, h⟩

end StreamingWorker

end BlockWorkbench
