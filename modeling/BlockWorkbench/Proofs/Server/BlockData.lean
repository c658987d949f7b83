import BlockWorkbench.Proofs.Log
import BlockWorkbench.Proofs.Script.HeldData
import BlockWorkbench.Proofs.Server.Delivery
import BlockWorkbench.Proofs.Worker.Echoing

/-!
Block data on its way through a session. Its text is read into a slot of the cache and announced; a
function that returns its argument gives it back, whether it is given the slot or the text; and a
poll for JSON sends it in the end. Whatever the layout of the text, it is the same data everywhere.
-/

namespace BlockWorkbench

open Script (Value Given Store)

variable {α : Type}

/-- A worker that is sent a single request answers it and goes on waiting, unless the request breaks
it off. -/
theorem Handled.run_single {ω : Type} {step : ω → Message α → Handled α ω} {w : ω}
    {request : Message α} (h : request.isShutdown = false)
    (hlasts : (step w request).ending ≠ .broken) :
    run step w [request] = ({ step w request with ending := .undone }, []) := by
  simp [run, h, hlasts, followedBy, giveUp]

@[simp]
theorem Handled.isOver_undone {ω : Type} (w : ω) (messages : List (Message α))
    (records : List Record) : isOver ⟨w, messages, records, .undone⟩ = false := rfl

/-! ### Requests to workers that wait for one -/

theorem Bus.takeExecution_send {b : Bus α} (h : b.execution = []) (m : Message α) :
    { b.sendExecution m with execution := [] } = b := by
  cases b
  cases h
  rfl

theorem Bus.takeStreaming_send {b : Bus α} (h : b.streaming = []) (m : Message α) :
    { b.sendStreaming m with streaming := [] } = b := by
  cases b
  cases h
  rfl

theorem Activity.executionStays {a : Activity} (h : a.executionAlive = true) :
    { a with executionStopped := false } = a := by
  rw [executionAlive, Bool.and_eq_true, Bool.not_eq_true'] at h
  rw [← h.2]

theorem Activity.streamingStays {a : Activity} (h : a.streamingAlive = true) :
    { a with streamingStopped := false } = a := by
  rw [streamingAlive, Bool.and_eq_true, Bool.not_eq_true'] at h
  rw [← h.2]

namespace Editor

/-- Both workers are at work and nothing waits for either of them. -/
structure Idle (e : Editor) : Prop where
  executionAlive : e.activity.executionAlive = true
  streamingAlive : e.activity.streamingAlive = true
  execution : e.bus.execution = []
  streaming : e.bus.streaming = []

variable {e : Editor} {request : Message Value}

theorem settleExecution_request (halive : e.activity.executionAlive = true)
    (hwaiting : e.bus.execution = [request]) (hrequest : request.isShutdown = false)
    (hlasts : (ExecutionWorker.step fuel e.cache e.execution request).ending ≠ .broken) :
    let answer := ExecutionWorker.step fuel e.cache e.execution request
    e.settleExecution.1 = { e with
      execution := answer.worker
      bus := { e.bus with execution := [] }.publishAll answer.messages } := by
  simp only [settleExecution, halive, if_true, hwaiting, ExecutionWorker.run,
    Handled.run_single hrequest hlasts, Handled.isOver_undone, Activity.executionStays halive]

theorem settleExecution_nothing (halive : e.activity.executionAlive = true)
    (hwaiting : e.bus.execution = []) : e.settleExecution.1 = e := by
  have hbus : { e.bus with execution := [] } = e.bus := by rw [← hwaiting]
  simp only [settleExecution, halive, if_true, hwaiting, ExecutionWorker.run, Handled.run,
    Handled.giveUp, Handled.isOver_undone, Activity.executionStays halive, Bus.publishAll,
    List.append_nil, hbus]

theorem settleStreaming_request (halive : e.activity.streamingAlive = true)
    (hwaiting : e.bus.streaming = [request]) (hrequest : request.isShutdown = false)
    (hlasts : (StreamingWorker.step { e.streaming with store := e.store } request).ending ≠
      .broken) :
    let answer := StreamingWorker.step { e.streaming with store := e.store } request
    e.settleStreaming.1 = { e with
      streaming := answer.worker
      bus := { e.bus with streaming := [] }.publishAll answer.messages }.withStore
        answer.worker.store := by
  simp only [settleStreaming, halive, if_true, hwaiting, StreamingWorker.run,
    Handled.run_single hrequest hlasts, Handled.isOver_undone, Activity.streamingStays halive]

theorem settleStreaming_nothing (halive : e.activity.streamingAlive = true)
    (hwaiting : e.bus.streaming = []) :
    e.settleStreaming.1 = { e with streaming := { e.streaming with store := e.store } } := by
  have hbus : { e.bus with streaming := [] } = e.bus := by rw [← hwaiting]
  simp only [settleStreaming, halive, if_true, hwaiting, StreamingWorker.run, Handled.run,
    Handled.giveUp, Handled.isOver_undone, Activity.streamingStays halive, Bus.publishAll,
    List.append_nil, hbus]
  rfl

namespace Idle

/-- An execution worker that waits answers a request at once. -/
theorem sendExecution (h : e.Idle) (hrequest : request.isShutdown = false)
    (hlasts : (ExecutionWorker.step fuel e.cache e.execution request).ending ≠ .broken) :
    let answer := ExecutionWorker.step fuel e.cache e.execution request
    (e.sendExecution request).editor = { e with
      execution := answer.worker
      streaming := { e.streaming with store := answer.worker.machine.store }
      bus := e.bus.publishAll answer.messages } := by
  intro answer
  have hwaiting : (e.bus.sendExecution request).execution = [request] := by
    rw [Bus.sendExecution, h.execution, List.nil_append]
  have hfirst := settleExecution_request (e := { e with bus := e.bus.sendExecution request })
    h.executionAlive hwaiting hrequest hlasts
  rw [Bus.takeExecution_send h.execution] at hfirst
  have hlater := settleStreaming_nothing (e := { e with
    execution := answer.worker, bus := e.bus.publishAll answer.messages })
    h.streamingAlive h.streaming
  exact (congrArg (fun e : Editor => e.settleStreaming.1) hfirst).trans hlater

/-- A streaming worker that waits answers a request at once. -/
theorem sendStreaming (h : e.Idle) (hrequest : request.isShutdown = false)
    (hlasts : (StreamingWorker.step { e.streaming with store := e.store } request).ending ≠
      .broken) :
    let answer := StreamingWorker.step { e.streaming with store := e.store } request
    (e.sendStreaming request).editor = { e with
      streaming := answer.worker
      bus := e.bus.publishAll answer.messages }.withStore answer.worker.store := by
  intro answer
  have hwaiting : (e.bus.sendStreaming request).streaming = [request] := by
    rw [Bus.sendStreaming, h.streaming, List.nil_append]
  have hfirst := settleExecution_nothing (e := { e with bus := e.bus.sendStreaming request })
    h.executionAlive h.execution
  have hlater := settleStreaming_request (e := { e with bus := e.bus.sendStreaming request })
    h.streamingAlive hwaiting hrequest hlasts
  rw [Bus.takeStreaming_send h.streaming] at hlater
  exact (congrArg (fun e : Editor => e.settleStreaming.1) hfirst).trans hlater

end Idle

end Editor

/-! ### What the workers answer -/

/-- The record of a session that gives a single text is written to the slot and announced. -/
theorem StreamingWorker.step_record (w : StreamingWorker) {b : BlockRequest} {slot : Slot}
    {text : String} {v : Json Points}
    (h : w.Opens (.fetchBlock b) (.cached b.cacheSlot slot) (texts [text]))
    (hread : Json.read text = .ok v) :
    let answer := step w (.fetchBlock b)
    answer.messages = [.blockCacheUpdated b.cacheSlot (w.store.ofJson v).1] ∧
      answer.worker.cache = w.cache.set slot (w.store.ofJson v).1 ∧
      answer.worker.store = (w.store.ofJson v).2 ∧ answer.ending = .done := by
  obtain ⟨r, hopen, hhandle⟩ := h.handle
  cases hsession : w.client.openSession r with | mk result client =>
  rw [hsession] at hopen
  cases hopen
  have hreadText : (Json.str text).readText = .ok v := by rw [Json.readText, hread]
  simp [step, hhandle, stream, hsession, texts, receive, hreadText, deliver, Handled.reported]

namespace ExecutionWorker

theorem readArguments_slot (cache : BlockCache Value) (name : Json) (slot : Slot) :
    readArguments cache name 0 [.cached (.int slot.number)] =
      (.ok [.value (cache.get slot)], [], []) := by
  cases slot <;> rfl

theorem readArguments_text (cache : BlockCache Value) (name : Json) {text : String} {v : Json Points}
    (hread : Json.read text = .ok v) :
    readArguments cache name 0 [.given (.str text)] = (.ok [.data v], [], []) := by
  have hreadText : (Json.str text).readText = .ok v := by rw [Json.readText, hread]
  simp only [readArguments, hreadText]
  rfl

/-- A function that returns its argument is answered with the data that it was given. -/
theorem step_echo {fuel : Nat} (cache : BlockCache Value) (w : ExecutionWorker) {name : String}
    {arg : Argument} {given : Given} {v : Json Points} {d : Nat}
    (hargs : readArguments cache (.str name) 0 [arg] = (.ok [given], [], []))
    (hecho : w.machine.Echoes fuel w.unit name) (hgiven : given.Holds w.machine.store v)
    (hv : v.Readable d) (hd : d < nestingLimit) :
    ∃ x m, step fuel cache w (.evaluateFunction (.str name) (.listed [arg])) =
        { worker := { w with machine := m }, messages := [.json x] } ∧
      w.machine.store.Extends m.store ∧ m.store.Holds v x ∧ m.depth = w.machine.depth := by
  obtain ⟨x, m, hcall, hgrown, hx⟩ := hecho.callFunction hgiven
  have hdocument := Store.document_of_holds hx hv hd
  have hanswer : w.handle fuel cache (.evaluateFunction (.str name) (.listed [arg])) =
      { worker := { w with machine := m }, messages := [.json x] } := by
    simp [handle, evaluateFunction, argumentsOf, hargs, callWith, hcall, sendValue, hdocument]
  have hdepth := w.machine.depth_callFunction fuel w.unit (.str name) [given]
  rw [hcall] at hdepth
  refine ⟨x, m, ?_, hgrown, hx, hdepth⟩
  simp only [step, hanswer]
  rfl

end ExecutionWorker

/-! ### What a session does with a block -/

namespace Editor

/-- What a request that is answered with one message leaves of a session: the message is published
behind the others, and what values held before they hold. -/
structure Answered (e e' : Editor) (m : Message Value) : Prop where
  outbound : e'.bus.outbound = e.bus.outbound ++ [m]
  log : e'.log = e.log
  idle : e'.Idle
  grown : e.store.Extends e'.store
  unit : e'.execution.unit = e.execution.unit
  depth : e'.execution.machine.depth = e.execution.machine.depth

variable {e : Editor}

/-- A block that is fetched is announced and cached as the data that its text is. -/
theorem Idle.fetchBlock (h : e.Idle) {number : Json} {slot : Slot} {text : String}
    {v : Json Points}
    (hopens : e.streaming.Opens
      (.fetchBlock ⟨number, e.settings.endpoint, e.tokenOf, .int slot.number⟩)
      (.cached (.int slot.number) slot) (StreamingWorker.texts [text]))
    (hread : Json.read text = .ok v) :
    let e' := (e.fetchBlock number (.int slot.number)).editor
    ∃ x, Answered e e' (.blockCacheUpdated (.int slot.number) x) ∧ e'.cache.get slot = x ∧
      e'.store.Holds v x := by
  intro e'
  have hopens' : StreamingWorker.Opens { e.streaming with store := e.store }
      (.fetchBlock ⟨number, e.settings.endpoint, e.tokenOf, .int slot.number⟩)
      (.cached (.int slot.number) slot) (StreamingWorker.texts [text]) := by
    cases hopens with
    | block hslot hstop hopen => exact .block hslot hstop hopen
  obtain ⟨hmessages, hcache, hstore, hending⟩ := StreamingWorker.step_record _ hopens' hread
  have hslot : (e.cache.set slot (e.store.ofJson v).1).get slot = (e.store.ofJson v).1 := by simp
  obtain ⟨hgrown, hx⟩ := e.store.ofJson_spec v
  have he' : e' = _ := h.sendStreaming rfl (by simp [hending])
  rw [hmessages, hstore] at he'
  rw [he']
  exact ⟨_, ⟨rfl, rfl, ⟨h.executionAlive, h.streamingAlive, h.execution, h.streaming⟩, hgrown, rfl,
    rfl⟩, (congrArg (·.get slot) hcache).trans hslot, hx⟩

/-- A function that returns its argument is answered with the data that it was given. -/
theorem Idle.callFunction (h : e.Idle) {name : String} {arg : Argument} {given : Given}
    {v : Json Points} {d : Nat} (hargs : ExecutionWorker.readArguments e.cache (.str name) 0 [arg] =
      (.ok [given], [], []))
    (hecho : e.execution.machine.Echoes fuel e.execution.unit name)
    (hgiven : given.Holds e.store v) (hv : v.Readable d) (hd : d < nestingLimit) :
    let e' := (e.callFunction (.str name) [arg]).editor
    ∃ x, Answered e e' (.json x) ∧ e'.cache = e.cache ∧ e'.store.Holds v x := by
  intro e'
  obtain ⟨x, m, hstep, hgrown, hx, hdepth⟩ :=
    ExecutionWorker.step_echo e.cache e.execution hargs hecho hgiven hv hd
  have he' : e' = _ := h.sendExecution rfl (by simp [hstep])
  rw [hstep] at he'
  rw [he']
  exact ⟨x, ⟨rfl, rfl, ⟨h.executionAlive, h.streamingAlive, h.execution, h.streaming⟩, hgrown, rfl,
    hdepth⟩, rfl, hx⟩

end Editor

/-! ### What a client gets -/

/-- A message that can be sent is shown, if nothing is searched for and nothing is hidden. -/
theorem Editor.isShown_of_transport {s : Store} {m : Message Value} {d : Document}
    (h : m.transport s.send = .ok d) : isShown s .null false m = .ok true := by
  have hsearched : ∃ text, searchedText s m = .ok text := by
    cases m with
    | json v | blockCacheUpdated _ v =>
        obtain ⟨d, hd, -⟩ := bind_eq_ok.mp h
        exact ⟨_, by rw [searchedText, valueText_of_send hd]; rfl⟩
    | _ => exact ⟨_, rfl⟩
  obtain ⟨text, htext⟩ := hsearched
  simp [isShown, htext, Json.isTruthy]

theorem Editor.shownMessages_of_transport {s : Store} {log : List (Message Value)}
    {ds : List Document} (h : log.mapM (·.transport s.send) = .ok ds) :
    shownMessages s .null false log = .ok log := by
  induction log generalizing ds with
  | nil => rfl
  | cons m rest ih =>
      simp only [List.mapM_cons, bind_eq_ok] at h
      obtain ⟨d, hd, more, hmore, -⟩ := h
      simp only [shownMessages, isShown_of_transport hd, ih hmore]
      rfl

namespace Server

/-- Data that can be read again is written as JSON that says the same. -/
theorem exists_json_content {v : Json Points} (hv : v.resent.Readable Json.depthLimit) :
    ∃ content, Form.json.content (.ofJson v) = .ok content ∧
      Form.json.read? content.bytes = some (.ofJson v.resent) := by
  have hread : Json.read v.text = .ok v.resent := Json.read_text hv
  refine ⟨.text (Document.ofJson v).toJson.text, rfl, ?_⟩
  rw [Form.read?, Content.bytes, MessagePack.fromUTF8?_toList, Document.toJson_ofJson_points]
  simp [hread, Except.toOption]

/-- A poll for JSON whose messages can be sent gets them all. -/
theorem answer_messages {s : Server} {e : Editor} {r : Request} {sent : List (Json Points)}
    (he : s.api.editor = some e) (hasks : r.Asks (.messages .null (.bool false)))
    (hform : Form.ofAccept r.accept = .json)
    (hsent : e.poll.2.log.mapM (·.transport e.store.send) = .ok (sent.map .ofJson))
    (hreadable : ∀ v ∈ sent, v.resent.Readable (Json.depthLimit - 1)) :
    let response := (s.answer r).1
    response.status = 200 ∧ response.contentType = Form.json.contentType ∧
      Form.json.read? response.content.bytes =
        some (.ofJson (.list (sent.map Json.resent))) := by
  intro response
  have hall : Api.isYes (.bool false) = false := rfl
  have hresult : (s.api.performWith e (.messages .null (.bool false))).result =
      .ok (.ofJson (.list sent)) := by
    refine messages_eq_ok.mpr ⟨_, ?_, _, hsent, ?_⟩
    · rw [hall, Editor.shownMessages_of_transport hsent]
    · rw [Document.ofJson, Document.ofJsonItems_eq_map]
  have hresent : (Json.list sent).resent = .list (sent.map Json.resent) :=
    congrArg Json.list (Json.mapItems_eq_map sent)
  have hlist : (Json.list sent).resent.Readable Json.depthLimit := by
    rw [hresent]
    exact Json.readableItems_iff.mpr (List.forall_mem_map.mpr hreadable)
  have hresponse : response = _ := answer_of_asks he hasks
  rw [hresponse, hform, ← hresent]
  exact resultResponse_iff.mpr ⟨_, hresult, exists_json_content hlist⟩

end Server

/-! ### The passage of a block -/

/-- A block that is fetched into a slot and then given to a function twice, out of the slot and as
its text. -/
structure Passage where
  start : Editor
  number : Json
  slot : Slot
  /-- The record that the session gives. -/
  text : String
  name : String

namespace Passage

variable (p : Passage)

def slotNumber : Json := .int p.slot.number

def fetched : Editor := (p.start.fetchBlock p.number p.slotNumber).editor

def called : Editor := (p.fetched.callFunction (.str p.name) [.cached p.slotNumber]).editor

def calledAgain : Editor := (p.called.callFunction (.str p.name) [.given (.str p.text)]).editor

/-- Whether both workers wait for requests and the session that is asked for gives the record and
nothing else. -/
structure Begins : Prop where
  idle : p.start.Idle
  opens : p.start.streaming.Opens
    (.fetchBlock ⟨p.number, p.start.settings.endpoint, p.start.tokenOf, p.slotNumber⟩)
    (.cached p.slotNumber p.slot) (StreamingWorker.texts [p.text])

/-- Whether both calls find a function that returns its argument. -/
structure Echoes : Prop where
  called : p.fetched.execution.machine.Echoes Editor.fuel p.fetched.execution.unit p.name
  calledAgain : p.called.execution.machine.Echoes Editor.fuel p.called.execution.unit p.name

/-- The messages about a block, with the values that they carry. -/
def messages (x y z : Value) : List (Message Value) :=
  [.blockCacheUpdated p.slotNumber x, .json y, .json z]

/-- What a client gets of them. -/
def sent (v : Json) : List Json := [
  .object [("kind", .str "block"), ("slot", p.slotNumber), ("value", v)],
  .object [("kind", .str "json"), ("value", v)],
  .object [("kind", .str "json"), ("value", v)]]

variable {p} {u : Json Points} {v : Json}

theorem Begins.fetched (h : p.Begins) (hread : Json.read p.text = .ok u) :
    ∃ x, p.start.Answered p.fetched (.blockCacheUpdated p.slotNumber x) ∧
      p.fetched.cache.get p.slot = x ∧ p.fetched.store.Holds u x :=
  h.idle.fetchBlock h.opens hread

theorem called_spec (hidle : p.fetched.Idle)
    (hecho : p.fetched.execution.machine.Echoes Editor.fuel p.fetched.execution.unit p.name)
    (hslot : p.fetched.store.Holds u (p.fetched.cache.get p.slot)) (hu : u.Readable 500) :
    ∃ y, p.fetched.Answered p.called (.json y) ∧ p.called.cache = p.fetched.cache ∧
      p.called.store.Holds u y :=
  hidle.callFunction (ExecutionWorker.readArguments_slot _ _ p.slot) hecho hslot hu (by decide)

theorem calledAgain_spec (hidle : p.called.Idle)
    (hecho : p.called.execution.machine.Echoes Editor.fuel p.called.execution.unit p.name)
    (hread : Json.read p.text = .ok u) (hu : u.Readable 500) :
    ∃ z, p.called.Answered p.calledAgain (.json z) ∧ p.calledAgain.cache = p.called.cache ∧
      p.calledAgain.store.Holds u z :=
  hidle.callFunction (ExecutionWorker.readArguments_text _ _ hread) hecho rfl hu (by decide)

theorem readable_spelled {depth : Nat} (hv : v.Readable depth) : v.spelled.Readable depth :=
  hv.mapTexts Points.ofString_injective

theorem transport_messages {s : Store} {x y z : Value} (hv : v.Readable 500)
    (hx : s.Holds v.spelled x) (hy : s.Holds v.spelled y) (hz : s.Holds v.spelled z) :
    (p.messages x y z).mapM (·.transport s.send) = .ok ((p.sent v).map .ofJson) := by
  have hsend {x : Value} (hx : s.Holds v.spelled x) : s.send x = .ok (.ofJson v) := by
    rw [← Document.ofJson_spelled]
    exact Store.send_of_holds hx (readable_spelled hv) (by decide)
  simp only [messages, List.mapM_cons, List.mapM_nil, Message.transport, hsend hx, hsend hy,
    hsend hz]
  rfl

theorem readable_sent (hv : v.Readable 500) :
    ∀ u ∈ p.sent v, u.Readable (Json.depthLimit - 1) := by
  have hv' : v.Readable (Json.depthLimit - 2) := hv.mono (by decide)
  have hslot : p.slotNumber.Readable (Json.depthLimit - 2) := by
    have hdigits : (Nat.toDigits 10 p.slot.number).length ≤ Number.digitLimit := by
      cases p.slot <;> decide
    exact hdigits
  have hobject (fields : List (String × Json)) (hnames : (fields.map (·.1)).Nodup)
      (hfields : ∀ f ∈ fields, f.2.Readable (Json.depthLimit - 2)) :
      (Json.object fields).Readable (Json.depthLimit - 1) :=
    ⟨hnames, Json.readableFields_iff.mpr hfields⟩
  simp only [sent, List.forall_mem_cons]
  refine ⟨hobject _ (by simp) ?_, hobject _ (by simp) ?_, hobject _ (by simp) ?_, by simp⟩
  all_goals simp [hv', hslot, Json.Readable]

/-- A unit whose definitions have no defaults and whose last one of the name returns its parameter
has both calls find it. -/
theorem Begins.echoes (h : p.Begins) (hread : Json.read p.text = .ok u) (hu : u.Readable 500)
    (hunit : Script.DefinesEcho p.start.execution.unit p.name)
    (hdepth : p.start.execution.machine.depth < Script.callLimit) : p.Echoes := by
  have hecho (m : Script.Machine) (hm : m.depth < Script.callLimit) :
      m.Echoes Editor.fuel p.start.execution.unit p.name :=
    Script.Machine.echoes_of_definesEcho hunit m hm (by decide)
  obtain ⟨x, hfetched, hslot, hx⟩ := h.fetched hread
  have hcalled : p.fetched.execution.machine.Echoes Editor.fuel p.fetched.execution.unit p.name :=
    hfetched.unit ▸ hecho _ (hfetched.depth ▸ hdepth)
  obtain ⟨y, hanswered, -, -⟩ := called_spec hfetched.idle hcalled (hslot ▸ hx) hu
  refine ⟨hcalled, ?_⟩
  rw [hanswered.unit, hfetched.unit]
  exact hecho _ (by rw [hanswered.depth, hfetched.depth]; exact hdepth)

/-- A block passes through a session unchanged, whatever the layout of its text: the announcement,
the slot, the answers of a function that returns its argument, to the slot and to the text, and
what a poll for JSON is answered with all carry the data that the text was written from. -/
theorem data_unchanged (p : Passage) {style : Json.Style} (hv : v.Readable 500)
    (hblank : style.Blank) (hsort : style.sortKeys = false) (htext : p.text = v.render style)
    (hbegins : p.Begins) (hechoes : p.Echoes) :
    ∃ x y z,
      p.fetched.bus.outbound = p.start.bus.outbound ++ [.blockCacheUpdated p.slotNumber x] ∧
      p.fetched.cache.get p.slot = x ∧ p.fetched.store.Holds v.spelled x ∧
      p.called.bus.outbound = p.fetched.bus.outbound ++ [.json y] ∧
      p.called.store.Holds v.spelled y ∧
      p.calledAgain.bus.outbound = p.called.bus.outbound ++ [.json z] ∧
      p.calledAgain.store.Holds v.spelled z ∧
      p.calledAgain.cache.get p.slot = x ∧ p.calledAgain.store.Holds v.spelled x ∧
      ∀ earlier : List (Json Points),
        (Editor.extend p.start.log p.start.bus.outbound).mapM
          (·.transport p.calledAgain.store.send) = .ok (earlier.map .ofJson) →
        (∀ u ∈ earlier, u.resent.Readable (Json.depthLimit - 1)) →
        ∀ (s : Server) (r : Server.Request), s.api.editor = some p.calledAgain →
          r.Asks (.messages .null (.bool false)) → Server.Form.ofAccept r.accept = .json →
          let response := (s.answer r).1
          response.status = 200 ∧ response.contentType = Server.Form.json.contentType ∧
            Server.Form.json.read? response.content.bytes =
              some (.ofJson (.list (earlier.map Json.resent ++ (p.sent v).map Json.spelled))) := by
  have hread : Json.read p.text = .ok v.spelled :=
    htext ▸ Json.read_render_spelled hblank hsort (hv.mono (by decide))
  have hu := readable_spelled hv
  obtain ⟨x, hfetched, hslot, hx⟩ := hbegins.fetched hread
  obtain ⟨y, hcalled, hcache, hy⟩ := called_spec hfetched.idle hechoes.called (hslot ▸ hx) hu
  obtain ⟨z, hagain, hcache', hz⟩ := calledAgain_spec hcalled.idle hechoes.calledAgain hread hu
  have hx' := (hx.mono hcalled.grown).mono hagain.grown
  have hlog : p.calledAgain.poll.2.log =
      Editor.extend p.start.log p.start.bus.outbound ++ p.messages x y z := by
    have houtbound : p.calledAgain.bus.outbound = p.start.bus.outbound ++ p.messages x y z := by
      rw [hagain.outbound, hcalled.outbound, hfetched.outbound]
      simp [messages]
    have hpolled : p.calledAgain.poll.2.log =
        Editor.extend p.calledAgain.log p.calledAgain.bus.outbound := rfl
    rw [hpolled, houtbound, hagain.log, hcalled.log, hfetched.log, Editor.extend_append]
    simp [messages, Editor.extend, Message.isCleared]
  refine ⟨x, y, z, hfetched.outbound, hslot, hx, hcalled.outbound, hy, hagain.outbound, hz, ?_, hx',
    fun earlier hearlier hreadable s r he hasks hform => ?_⟩
  · rw [hcache', hcache, hslot]
  · have hresent : ((p.sent v).map Json.spelled).map Json.resent = (p.sent v).map Json.spelled := by
      simp only [List.map_map, Function.comp_def, Json.resent_spelled]
    have hsent : (p.sent v).map Document.ofJson =
        ((p.sent v).map Json.spelled).map .ofJson := by
      simp only [List.map_map, Function.comp_def, Document.ofJson_spelled]
    rw [← hresent, ← List.map_append]
    refine Server.answer_messages he hasks hform ?_ ?_
    · rw [hlog, List.mapM_append, hearlier,
        transport_messages hv hx' (hy.mono hagain.grown) hz, hsent, List.map_append]
      rfl
    · refine List.forall_mem_append.mpr ⟨hreadable, List.forall_mem_map.mpr fun u hu => ?_⟩
      rw [Json.resent_spelled]
      exact readable_spelled (readable_sent hv u hu)

/-- A small block that is written over several lines. -/
def smallBlock : Json := .object [("number", .int (-7)), ("logs", .list [.null, .str "é"])]

def indented : Json.Style := { indent := some [' ', ' '] }

def smallPassage : Passage where
  start := {
    settings := {
      endpoint := .str "https://example.org", package := .str "p.spkg"
      moduleName := .str "map_block", startBlock := 1, stopBlock := 3, token := none
      streamTimeout := .null, sourcePath := .str "script.py", showExceptions := false }
    execution := { unit := [Script.echoDefinition "f" "x"] }
    streaming := StreamingWorker.workerFor [smallBlock.render indented]
    activity := { started := true } }
  number := .int 5
  slot := .third
  text := smallBlock.render indented
  name := "f"

theorem smallPassage_begins : smallPassage.Begins where
  idle := ⟨rfl, rfl, rfl, rfl⟩
  opens := .block rfl rfl rfl

theorem smallBlock_readable : smallBlock.Readable 500 := by
  have hdigits : (Nat.toDigits 10 7).length ≤ Number.digitLimit := by decide
  exact ⟨by simp, hdigits, ⟨trivial, trivial, trivial⟩, trivial⟩

theorem smallPassage_unit :
    Script.DefinesEcho smallPassage.start.execution.unit smallPassage.name where
  plain := by
    have hfilter : smallPassage.start.execution.unit.filter Script.Stmt.isDefinition =
        [Script.echoDefinition "f" "x"] := rfl
    rw [hfilter]
    simp [Script.echoDefinition, Script.Stmt.HasNoDefaults]
  last := ⟨[], "x", [], rfl, by simp⟩

theorem data_unchanged_small :
    smallBlock.Readable 500 ∧ indented.Blank ∧ indented.sortKeys = false ∧
      smallPassage.text = smallBlock.render indented ∧ smallPassage.Begins ∧ smallPassage.Echoes ∧
      let server : Server := { api := { editor := some smallPassage.calledAgain } }
      let response := (server.answer (Server.poll (some "application/json"))).1
      response.status = 200 ∧ Server.Form.json.read? response.content.bytes =
        some (.ofJson (.list ((smallPassage.sent smallBlock).map Json.spelled))) := by
  have hblank : indented.Blank := by simp [indented, Json.Style.Blank, Json.isSpace]
  have hread : Json.read smallPassage.text = .ok smallBlock.spelled :=
    Json.read_render_spelled hblank rfl (smallBlock_readable.mono (by decide))
  have hechoes : smallPassage.Echoes :=
    smallPassage_begins.echoes hread (readable_spelled smallBlock_readable)
      smallPassage_unit (by decide)
  obtain ⟨x, y, z, -, -, -, -, -, -, -, -, -, hpolled⟩ := data_unchanged smallPassage
    smallBlock_readable hblank rfl rfl smallPassage_begins hechoes
  obtain ⟨hstatus, -, hresponse⟩ := hpolled [] rfl (by simp)
    { api := { editor := some smallPassage.calledAgain } }
    (Server.poll (some "application/json")) rfl (Server.asks_poll _) (by decide)
  exact ⟨smallBlock_readable, hblank, rfl, rfl, smallPassage_begins, hechoes, hstatus, hresponse⟩

end Passage

end BlockWorkbench
