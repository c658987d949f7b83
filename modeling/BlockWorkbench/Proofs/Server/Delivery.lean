import BlockWorkbench.Proofs.Document
import BlockWorkbench.Proofs.Server.Routing
import BlockWorkbench.Proofs.Streaming.Delivery
import BlockWorkbench.Server

/-!
What clients get of a result. It is sent as MessagePack and as JSON text, and clients get the same
of both exactly if the document that it is can be packed and is JSON. The messages of a session
and its block cache can thus be fetched exactly if each value in them is so.
-/

namespace BlockWorkbench

section Lists

variable {ε α β : Type}

theorem map_of_mapM {γ : Type} {f : α → Except ε β} {g : β → γ} {h : α → γ}
    (hf : ∀ a b, f a = .ok b → g b = h a) {as : List α} {bs : List β}
    (hbs : as.mapM f = .ok bs) : bs.map g = as.map h := by
  induction as generalizing bs with
  | nil =>
      cases hbs
      rfl
  | cons a as ih =>
      rw [List.mapM_cons] at hbs
      obtain ⟨b, hb, hbs⟩ := bind_eq_ok.mp hbs
      obtain ⟨rest, hrest, hbs⟩ := bind_eq_ok.mp hbs
      cases hbs
      rw [List.map_cons, List.map_cons, hf a b hb, ih hrest]

theorem length_of_mapM {f : α → Except ε β} {as : List α} {bs : List β}
    (h : as.mapM f = .ok bs) : bs.length = as.length := by
  have hunits := map_of_mapM (g := fun _ => ()) (h := fun _ => ()) (fun _ _ _ => rfl) h
  simpa using congrArg List.length hunits

theorem exists_mapM_iff {f : α → Except ε β} {p : β → Prop} {as : List α} :
    (∃ bs, as.mapM f = .ok bs ∧ ∀ b ∈ bs, p b) ↔ ∀ a ∈ as, ∃ b, f a = .ok b ∧ p b := by
  induction as with
  | nil => simp
  | cons a as ih =>
      rw [List.forall_mem_cons, ← ih]
      simp only [List.mapM_cons, bind_eq_ok]
      constructor
      · rintro ⟨bs, ⟨b, hb, rest, hrest, h⟩, hall⟩
        cases h
        rw [List.forall_mem_cons] at hall
        exact ⟨⟨b, hb, hall.1⟩, rest, hrest, hall.2⟩
      · rintro ⟨⟨b, hb, hp⟩, rest, hrest, hall⟩
        exact ⟨_, ⟨b, hb, rest, hrest, rfl⟩, List.forall_mem_cons.mpr ⟨hp, hall⟩⟩

end Lists

namespace Script

/-- Values that are sent as documents that both forms carry. -/
def Store.Sends (s : Store) (room : Nat) (v : Value) : Prop :=
  ∃ d, s.send v = .ok d ∧ d.Deliverable room

end Script

open Script (Store Value)

namespace Message

/-- Messages that both forms carry, where what a message holds may be `room` values deep. -/
def Deliverable (s : Store) (room : Nat) : Message Value → Prop
  | text t => (Document.ofJson t).Deliverable room
  | json v => s.Sends room v
  | blockCacheUpdated slot v => (Document.ofJson slot).Deliverable room ∧ s.Sends room v
  | cleared => True
  | _ => False

theorem transport_deliverable_iff {s : Store} {room : Nat} {m : Message Value} :
    (∃ d, m.transport s.send = .ok d ∧ d.Deliverable (room + 2)) ↔
      m.Deliverable s (room + 1) := by
  have hwords : ∀ word ∈ ["kind", "slot", "value", "text", "json", "block", "cleared"],
      Scalar.Packable (.str (.ofString word)) := by
    simp only [MessagePack.packable_ofString]
    decide
  simp only [List.forall_mem_cons] at hwords
  cases m with
  | text t =>
      simp [transport, Deliverable, Document.deliverable_fields, Document.deliverable_str,
        MessagePack.sizeLimit, hwords]
  | json v =>
      simp [transport, Deliverable, Document.deliverable_fields, Document.deliverable_str,
        MessagePack.sizeLimit, hwords, bind_eq_ok, Store.Sends]
  | blockCacheUpdated slot v =>
      simp [transport, Deliverable, Document.deliverable_fields, Document.deliverable_str,
        MessagePack.sizeLimit, hwords, bind_eq_ok, Store.Sends, and_left_comm]
  | cleared =>
      simp [transport, Deliverable, Document.deliverable_fields, Document.deliverable_str,
        MessagePack.sizeLimit, hwords]
  | _ => simp [transport, Deliverable]

/-- An integer is carried exactly if it has 64 bits. -/
theorem deliverable_int {s : Store} {room : Nat} {n : Int}
    (h : n.natAbs < 10 ^ Number.digitLimit) :
    (json (.int n)).Deliverable s (room + 1) ↔ Scalar.Packable (.int n) := by
  simp only [Deliverable, Store.Sends, s.send_int h, Except.ok.injEq, exists_eq_left']
  exact ⟨fun h => h.packable, fun h => ⟨h, Document.isJson_ofJson (v := .int n).mpr trivial⟩⟩

end Message

/-- A search looks through what a client is sent for a value. -/
theorem Editor.valueText_of_send {s : Store} {v : Value} {d : Document} (h : s.send v = .ok d) :
    valueText s v = .ok d.toJson.text := by
  rw [valueText, Store.quotingDocument_of_document (mapError_eq_ok.mp h)]
  rfl

namespace Server

/-! ### Results -/

/-- The document that bytes are in a form. -/
def Form.read? (form : Form) (bytes : List UInt8) : Option Document :=
  match form with
  | .json => do
    let text ← String.fromUTF8? ⟨bytes.toArray⟩
    let v : Json Points ← (Json.read text).toOption
    return .ofJson v
  | .messagePack => MessagePack.unpack bytes

/-- The content of a document in a form can be made and is read as the document. -/
theorem exists_content_iff {d : Document} :
    (∀ form : Form, ∃ content, form.content d = .ok content ∧ form.read? content.bytes = some d) ↔
      d.Deliverable MessagePack.nestingLimit := by
  constructor
  · intro h
    obtain ⟨content, hpacked, -⟩ := h .messagePack
    obtain ⟨bytes, hbytes, -⟩ := map_eq_ok.mp hpacked
    have hpackable := MessagePack.pack_iff.mp ⟨bytes, hbytes⟩
    obtain ⟨content, htext, hread⟩ := h .json
    cases htext
    rw [Form.read?, Content.bytes, MessagePack.fromUTF8?_toList] at hread
    refine ⟨hpackable, (Document.read_text_iff hpackable).mp ?_⟩
    cases hv : (Json.read d.toJson.text : Except Json.ReadError (Json Points)) with
    | error f => simp [hv, Except.toOption] at hread
    | ok v => exact ⟨v, rfl, by simpa [hv, Except.toOption] using hread⟩
  · rintro ⟨hpackable, hjson⟩ form
    cases form with
    | messagePack =>
        obtain ⟨bytes, hbytes⟩ := MessagePack.pack_iff.mpr hpackable
        exact ⟨.packed bytes, map_eq_ok.mpr ⟨bytes, hbytes, rfl⟩, MessagePack.unpack_pack hbytes⟩
    | json =>
        obtain ⟨v, hread, hv⟩ := (Document.read_text_iff hpackable).mpr hjson
        refine ⟨.text d.toJson.text, rfl, ?_⟩
        rw [Form.read?, Content.bytes, MessagePack.fromUTF8?_toList]
        simp [hread, hv, Except.toOption]

/-- Requests that ask for something of the session: under a path of its, with arguments that it
takes. -/
def Request.Asks (r : Request) (request : Api.Request) : Prop :=
  (Method.ofName r.method = .get ∨ Method.ofName r.method = .post) ∧
    ∃ entry named, Route.ofPath? r.path = some (.call entry) ∧
      arguments r entry.name = .ok named ∧ entry.request named = .ok request

/-- Requests that are answered with one and the same document, whichever form is asked for. -/
def Delivers (s : Server) (r : Request) : Prop :=
  ∃ d, ∀ accept : Option String,
    let form := Form.ofAccept accept
    let response := (s.answer { r with accept }).1
    response.status = 200 ∧ response.contentType = form.contentType ∧
      form.read? response.content.bytes = some d

variable {s : Server} {e : Editor} {r : Request} {request : Api.Request}

theorem answer_of_asks (he : s.api.editor = some e) (h : r.Asks request) :
    (s.answer r).1 =
      s.resultResponse (.ofAccept r.accept) (s.api.performWith e request).result := by
  obtain ⟨hmethod, entry, named, hroute, hnamed, hrequest⟩ := h
  have hcall : s.call entry r =
      (s.resultResponse (.ofAccept r.accept) (s.api.performWith e request).result,
        { s with api := (s.api.performWith e request).api }) := by
    simp only [call, hnamed, Api.call, hrequest, Api.perform, he]
  obtain hget | hpost := hmethod
  · simp [answer, respond, hroute, hget, Route.allows, hcall]
  · simp [answer, respond, hroute, hpost, Route.allows, hcall]

/-- A result is answered with a document in a form exactly if it can be written so. -/
theorem resultResponse_iff {form : Form} {result : Except Fault Document} {d : Document} :
    ((s.resultResponse form result).status = 200 ∧
        (s.resultResponse form result).contentType = form.contentType ∧
        form.read? (s.resultResponse form result).content.bytes = some d) ↔
      ∃ sent, result = .ok sent ∧
        ∃ content, form.content sent = .ok content ∧ form.read? content.bytes = some d := by
  simp only [resultResponse]
  cases hcontent : result >>= form.content with
  | ok content =>
      obtain ⟨sent, rfl, hsent⟩ := bind_eq_ok.mp hcontent
      simp [hsent]
  | error f =>
      have hstatus : (s.report (.failed f)).status ≠ 200 := by simp [report, Problem.status]
      simp only [hstatus, false_and, false_iff]
      rintro ⟨sent, rfl, content, hsent, -⟩
      rw [ok_bind, hsent] at hcontent
      cases hcontent

theorem Form.ofAccept_contentType (form : Form) : ofAccept (some form.contentType) = form := by
  cases form <;> decide

theorem delivers_iff (he : s.api.editor = some e) (h : r.Asks request) :
    s.Delivers r ↔
      ∃ d, (s.api.performWith e request).result = .ok d ∧
        d.Deliverable MessagePack.nestingLimit := by
  have hanswer (accept : Option String) :
      (s.answer { r with accept }).1 =
        s.resultResponse (.ofAccept accept) (s.api.performWith e request).result :=
    answer_of_asks he h
  simp only [Delivers, hanswer, resultResponse_iff]
  constructor
  · rintro ⟨d, hd⟩
    obtain ⟨sent, hsent, content, hpacked, hread⟩ := hd none
    obtain ⟨bytes, hbytes, rfl⟩ := map_eq_ok.mp hpacked
    obtain rfl : sent = d := Option.some.inj ((MessagePack.unpack_pack hbytes).symm.trans hread)
    refine ⟨sent, hsent, exists_content_iff.mp fun form => ?_⟩
    obtain ⟨again, hagain, hcontent⟩ := hd (some form.contentType)
    rw [Form.ofAccept_contentType] at hcontent
    obtain rfl : again = sent := Except.ok.inj (hagain.symm.trans hsent)
    exact hcontent
  · rintro ⟨d, hresult, hd⟩
    exact ⟨d, fun accept => ⟨d, hresult, exists_content_iff.mpr hd _⟩⟩

/-! ### Messages -/

theorem messages_eq_ok {search : Json Points} {hideEmpty : Json} {d : Document} :
    (s.api.performWith e (.messages search hideEmpty)).result = .ok d ↔
      ∃ shown, Editor.shownMessages e.store search (Api.isYes hideEmpty) e.poll.2.log = .ok shown ∧
        ∃ sent, shown.mapM (·.transport e.store.send) = .ok sent ∧ .list sent = d := by
  have hstore : e.poll.2.store = e.store := rfl
  simp only [Api.performWith, Api.settled, Api.messagesReply, Editor.messages, bind_eq_ok,
    pure_eq_ok, Except.ok.injEq, exists_eq_right, hstore]

theorem messages_deliverable_iff {search : Json Points} {hideEmpty : Json} :
    (∃ d, (s.api.performWith e (.messages search hideEmpty)).result = .ok d ∧
        d.Deliverable MessagePack.nestingLimit) ↔
      ∃ shown, Editor.shownMessages e.store search (Api.isYes hideEmpty) e.poll.2.log = .ok shown ∧
        shown.length < MessagePack.sizeLimit ∧
        ∀ m ∈ shown, m.Deliverable e.store (MessagePack.nestingLimit - 2) := by
  simp only [messages_eq_ok]
  constructor
  · rintro ⟨_, ⟨shown, hshown, sent, hsent, rfl⟩, hd⟩
    obtain ⟨hsize, hall⟩ := Document.deliverable_list.mp hd
    refine ⟨shown, hshown, length_of_mapM hsent ▸ hsize, fun m hm => ?_⟩
    exact Message.transport_deliverable_iff.mp (exists_mapM_iff.mp ⟨sent, hsent, hall⟩ m hm)
  · rintro ⟨shown, hshown, hsize, hall⟩
    obtain ⟨sent, hsent, hdeliverable⟩ :=
      exists_mapM_iff.mpr fun m hm => Message.transport_deliverable_iff.mpr (hall m hm)
    refine ⟨.list sent, ⟨shown, hshown, sent, hsent, rfl⟩, ?_⟩
    exact Document.deliverable_list.mpr ⟨length_of_mapM hsent ▸ hsize, hdeliverable⟩

/-! ### The block cache -/

/-- A slot as an entry of what is sent of the cache. -/
def slotEntry (e : Editor) (slot : Slot) : Except Fault (String × Document) := do
  return (toString slot.number, ← e.store.send (e.cache.get slot))

theorem slotEntry_eq_ok {slot : Slot} {entry : String × Document} :
    slotEntry e slot = .ok entry ↔
      ∃ d, e.store.send (e.cache.get slot) = .ok d ∧ (toString slot.number, d) = entry := by
  simp only [slotEntry, bind_eq_ok, pure_eq_ok, Except.ok.injEq]

theorem blockCache_eq_ok {d : Document} : (s.api.performWith e .blockCache).result = .ok d ↔
    ∃ entries, Slot.all.mapM (slotEntry e) = .ok entries ∧ .fields entries = d := by
  simp only [Api.performWith, Api.cacheDocument, BlockCache.snapshot, List.mapM_map, bind_eq_ok,
    pure_eq_ok, Except.ok.injEq]
  rfl

theorem names_of_slots {entries : List (String × Document)}
    (h : Slot.all.mapM (slotEntry e) = .ok entries) :
    entries.map (·.1) = Slot.all.map fun slot => toString slot.number := by
  refine map_of_mapM (fun slot entry hentry => ?_) h
  obtain ⟨d, -, rfl⟩ := slotEntry_eq_ok.mp hentry
  rfl

theorem blockCache_deliverable_iff :
    (∃ d, (s.api.performWith e .blockCache).result = .ok d ∧
        d.Deliverable MessagePack.nestingLimit) ↔
      ∀ slot, e.store.Sends (MessagePack.nestingLimit - 1) (e.cache.get slot) := by
  have hall (slot : Slot) : slot ∈ Slot.all := by cases slot <;> decide
  have hpackable (slot : Slot) : Scalar.Packable (.str (.ofString slot.number.repr)) := by
    rw [MessagePack.packable_ofString]
    cases slot <;> decide
  have hentry (slot : Slot) :
      (∃ entry, slotEntry e slot = .ok entry ∧ Scalar.Packable (.str (.ofString entry.1)) ∧
          entry.2.Deliverable (MessagePack.nestingLimit - 1)) ↔
        e.store.Sends (MessagePack.nestingLimit - 1) (e.cache.get slot) := by
    simp [slotEntry_eq_ok, Store.Sends, hpackable]
  simp only [blockCache_eq_ok]
  constructor
  · rintro ⟨_, ⟨entries, hentries, rfl⟩, hd⟩ slot
    obtain ⟨-, -, hd⟩ := Document.deliverable_fields.mp hd
    exact (hentry slot).mp (exists_mapM_iff.mp ⟨entries, hentries, hd⟩ slot (hall slot))
  · intro h
    obtain ⟨entries, hentries, hd⟩ := exists_mapM_iff.mpr fun slot _ => (hentry slot).mpr (h slot)
    refine ⟨_, ⟨entries, hentries, rfl⟩, Document.deliverable_fields.mpr ⟨?_, ?_, hd⟩⟩
    · rw [length_of_mapM hentries]
      decide
    · rw [names_of_slots hentries]
      decide

/-- Messages and cached blocks are delivered exactly if every value among them can be: if it can
be packed and is JSON. -/
theorem delivers_iff_deliverable (he : s.api.editor = some e) :
    (∀ search hideEmpty, r.Asks (.messages search hideEmpty) →
      (s.Delivers r ↔ ∃ shown,
        Editor.shownMessages e.store search (Api.isYes hideEmpty) e.poll.2.log = .ok shown ∧
        shown.length < MessagePack.sizeLimit ∧
        ∀ m ∈ shown, m.Deliverable e.store (MessagePack.nestingLimit - 2))) ∧
    (r.Asks .blockCache →
      (s.Delivers r ↔
        ∀ slot, e.store.Sends (MessagePack.nestingLimit - 1) (e.cache.get slot))) :=
  ⟨fun _ _ h => (delivers_iff he h).trans messages_deliverable_iff,
    fun h => (delivers_iff he h).trans blockCache_deliverable_iff⟩

/-! ### A number that was fetched -/

/-- A session that has been asked for its only range, which gives these records. -/
def fetched (records : List String) : Editor :=
  let settings : Settings := {
    endpoint := .str "https://example.org", package := .str "p.spkg"
    moduleName := .str "map_block", startBlock := 1, stopBlock := 3, token := none
    streamTimeout := .null, sourcePath := .str "script.py", showExceptions := false }
  let e : Editor := { settings, streaming := StreamingWorker.workerFor records }
  (e.start.editor.runStream .null .null .null).editor

def serverFor (records : List String) : Server := { api := { editor := some (fetched records) } }

def poll (accept : Option String) : Request := { path := "/get_messages", accept }

theorem asks_poll (accept : Option String) :
    (poll accept).Asks (.messages .null (.bool false)) := by
  have hupper : "GET".toUpper = "GET" := by cbv
  have hget : Method.ofName (poll accept).method = .get := by simp [poll, Method.ofName, hupper]
  have hentry : Api.entries[18] ∈ Api.entries := List.getElem_mem _
  have hroute : Route.ofPath? ("/" ++ "get_messages") = some (.call _) :=
    (Route.ofPath?_entry hentry).1
  refine ⟨.inl hget, _, [], hroute, ?_, rfl⟩
  rw [arguments, if_pos hget]
  rfl

section Fetched

variable {record : String} {n : Int}

/-- A record that is a number is published as it is. -/
theorem outbound_fetched (h : Json.read record = .ok (.int n : Json Points)) :
    (fetched [record]).bus.outbound = [.json (.int n)] := by
  have hread : (Json.str record).readText = .ok (.int n) := by rw [Json.readText, h]
  simp [fetched, Editor.start, Editor.runStream, Editor.sendStreaming, Editor.settle,
    Editor.settleExecution, Editor.settleStreaming, Activity.executionAlive,
    Activity.streamingAlive, ExecutionWorker.run, StreamingWorker.run, Handled.run, Handled.giveUp,
    Message.isShutdown, StreamingWorker.step, StreamingWorker.handle, StreamingWorker.stream,
    Stream.Client.openSession, StreamingWorker.workerFor, Stream.Client.openScripted,
    StreamingWorker.texts, StreamingWorker.receive, hread, StreamingWorker.deliver,
    Script.Store.ofJson, Handled.isOver, Handled.reported, Handled.followedBy, Bus.sendStreaming,
    Bus.publishAll,
    Editor.withStore]

variable (h : Json.read record = .ok (.int n : Json Points)) (hn : n.natAbs < 10 ^ Number.digitLimit)

include h hn

theorem shown_fetched :
    Editor.shownMessages (fetched [record]).store .null (Api.isYes (.bool false))
      (fetched [record]).poll.2.log = .ok [.json (.int n)] := by
  have hlog : (fetched [record]).poll.2.log = [.json (.int n)] := by
    change Editor.extend [] (fetched [record]).bus.outbound = _
    rw [outbound_fetched h]
    rfl
  have hall : Api.isYes (.bool false) = false := rfl
  rw [hlog, hall]
  simp only [Editor.shownMessages, Editor.isShown, Editor.searchedText,
    Editor.valueText_of_send (Store.send_int _ hn)]
  rfl

theorem result_fetched :
    ((serverFor [record]).api.performWith (fetched [record])
        (.messages .null (.bool false))).result =
      .ok (.list [.fields [("kind", .str "json"), ("value", .int n)]]) := by
  refine messages_eq_ok.mpr ⟨_, shown_fetched h hn, _, ?_, rfl⟩
  simp only [List.mapM_cons, List.mapM_nil, Message.transport, Store.send_int _ hn]
  rfl

theorem delivers_poll_iff (accept : Option String) :
    (serverFor [record]).Delivers (poll accept) ↔ Scalar.Packable (.int n) := by
  have hroom : MessagePack.nestingLimit - 2 = 509 + 1 := rfl
  rw [delivers_iff rfl (asks_poll accept), messages_deliverable_iff, hroom]
  simp only [shown_fetched h hn, Except.ok.injEq, exists_eq_left', List.mem_singleton, forall_eq,
    Message.deliverable_int hn]
  simp [MessagePack.sizeLimit]

end Fetched

theorem delivers_iff_deliverable_small :
    (serverFor ["1"]).api.editor = some (fetched ["1"]) ∧
      (poll none).Asks (.messages .null (.bool false)) ∧ (serverFor ["1"]).Delivers (poll none) := by
  have hread : Json.read "1" = .ok (.int 1 : Json Points) := by cbv
  have hn : (1 : Int).natAbs < 10 ^ Number.digitLimit := Nat.one_lt_pow (by decide) (by decide)
  have hdelivers := (delivers_iff_deliverable (s := serverFor ["1"]) (r := poll none) rfl).1 _ _
    (asks_poll none)
  refine ⟨rfl, asks_poll none, hdelivers.mpr ⟨_, shown_fetched hread hn, by decide, ?_⟩⟩
  have hroom : MessagePack.nestingLimit - 2 = 509 + 1 := by decide
  simp only [List.mem_singleton, forall_eq, hroom]
  exact (Message.deliverable_int hn).mpr (by decide)

/-- A number of more than 64 bits is taken for JSON, and then all polls for the packed form fail. -/
theorem large_number_not_delivered :
    (fetched ["18446744073709551616"]).bus.outbound = [.json (.int (2 ^ 64))] ∧
      (poll none).Asks (.messages .null (.bool false)) ∧
      ((serverFor ["18446744073709551616"]).answer (poll none)).1.status = 500 ∧
      ((serverFor ["18446744073709551616"]).answer (poll (some "application/json"))).1.status =
        200 ∧
      ¬ (serverFor ["18446744073709551616"]).Delivers (poll none) := by
  have hread : Json.read "18446744073709551616" = .ok (.int (2 ^ 64) : Json Points) := by cbv
  have hn : (2 ^ 64 : Int).natAbs < 10 ^ Number.digitLimit :=
    lt_of_lt_of_le (b := 10 ^ 20) (by decide) (Nat.pow_le_pow_right (by decide) (by decide))
  refine ⟨outbound_fetched hread, asks_poll none, ?_, ?_, ?_⟩
  · rw [answer_of_asks rfl (asks_poll none), result_fetched hread hn]
    rfl
  · rw [answer_of_asks rfl (asks_poll _), result_fetched hread hn]
    rfl
  · rw [delivers_poll_iff hread hn]
    decide

end Server

end BlockWorkbench
