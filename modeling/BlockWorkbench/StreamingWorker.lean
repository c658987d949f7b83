import BlockWorkbench.ExecutionWorker
import BlockWorkbench.Stream.Client

/-!
The worker that fetches records. It takes one request at a time and runs its session to the end
before it looks at the next one. The records of a range are passed on as they come; those of a
single block are written to a slot of the cache, and each write is announced.
-/

namespace BlockWorkbench

open Script (Value)

/-- The client that opens the sessions, the cache that is filled, and the objects that the values
of records are made of. -/
structure StreamingWorker where
  client : Stream.Client
  cache : BlockCache Value := .empty .none
  store : Script.Store := {}

namespace StreamingWorker

def source : String := "streamline.dataflow.stream"

/-- The package and the module that single blocks are read from. -/
def blockPackage : String := "https://spkg.io/streamingfast/ethereum-explorer-v0.1.2.spkg"

def blockModule : String := "map_block_full"

/-- What becomes of the value of a record. -/
inductive Target where
  | passedOn
  /-- The slot as it was given, and the one that it addresses. -/
  | cached (given : Json) (slot : Slot)

abbrev Answer := Handled Value StreamingWorker

/-- Keeps a value and announces it. -/
def deliver (w : StreamingWorker) (target : Target) (v : Json Points) :
    Message Value × StreamingWorker :=
  let (v, store) := w.store.ofJson v
  let w := { w with store }
  match target with
  | .passedOn => (.json v, w)
  | .cached given slot => (.blockCacheUpdated given v, { w with cache := w.cache.set slot v })

/-- Takes in what a session gives. A record that is not JSON is reported and skipped; a lost
connection is reported and ends the session. An error that is no exception leaves the worker. -/
def receive (w : StreamingWorker) (target : Target) : List Stream.Entry → Answer
  | [] => { worker := w }
  | .failure f :: _ =>
    if f.kind.isConnection ∨ f.kind.isHttp then .say w ("Stream interrupted: " ++ f.text)
    else if f.kind.isException then .giveUp w
    else .breakOff w
  | .record record :: rest =>
    match record.readText with
    | .ok v =>
      let (message, w) := w.deliver target v
      let later := receive w target rest
      { later with messages := message :: later.messages }
    | .error f =>
      if f.kind = .recursion then .giveUp w
      else
        let later := receive w target rest
        { later with
          messages := .text (.str ("Malformed record: " ++ f.message)) :: later.messages }

/-- The record of a session that was opened. -/
def openedRecord (r : RangeRequest) : Record :=
  ⟨.info, source, "streaming " ++ r.moduleName.plain ++ " from " ++ r.endpoint.plain ++ " blocks "
    ++ r.start.plain ++ " to " ++ r.stop.plain⟩

/-- Runs a session. -/
def stream (w : StreamingWorker) (target : Target) (r : RangeRequest) : Answer :=
  let (entries, client) := w.client.openSession r
  let w := { w with client }
  match entries with
  | .error .broken => .giveUp w
  | .error .escaped => .breakOff w
  | .error (.dropped text) =>
    { Handled.say w ("Stream failed: " ++ text) with
      records := [⟨.info, source, "stream request dropped: " ++ text⟩] }
  | .ok entries =>
    let answer := w.receive target entries
    { answer with records := openedRecord r :: answer.records }

/-- The number behind a number; there is none behind other values. -/
def successor? : Json → Option Json
  | .int n => some (.int (n + 1))
  | .bool b => some (.int (if b then 2 else 1))
  | .float x => some (.float (x + 1.0))
  | _ => none

/-- Fetches the range of one block for a slot. -/
def fetchBlock (w : StreamingWorker) (b : BlockRequest) : Answer :=
  match Slot.ofJson? b.cacheSlot with
  | none =>
    if b.blockNumber.isTooDeep || b.cacheSlot.isTooDeep then .giveUp w
    else
      let line :=
        "Invalid cache slot " ++ b.cacheSlot.literal ++ " for block " ++ b.blockNumber.plain
      { Handled.say w line with
        records := [⟨.warning, source, "block " ++ b.blockNumber.plain
          ++ " requested for invalid cache slot " ++ b.cacheSlot.literal⟩] }
  | some slot =>
    match successor? b.blockNumber with
    | none => .giveUp w
    | some stop =>
      w.stream (.cached b.cacheSlot slot) {
        start := b.blockNumber, stop, endpoint := b.endpoint, package := .str blockPackage
        moduleName := .str blockModule, token := b.token }

def handle (w : StreamingWorker) : Message Value → Answer
  | .runRange r => w.stream .passedOn r
  | .fetchBlock b => w.fetchBlock b
  | _ => .giveUp w

/-- Deals with a request; one that could not be dealt with is reported and dropped. -/
def step (w : StreamingWorker) (request : Message Value) : Answer :=
  let answer := w.handle request
  answer.reported "Stream failed: " request
    (request.failureRecord? source "streaming request " answer.worker.store)

/-- Takes up requests up to a shutdown, or up to one that breaks the worker off, and gives back
those behind it. -/
def run (w : StreamingWorker) (requests : List (Message Value)) :
    Answer × List (Message Value) :=
  Handled.run step w requests

end StreamingWorker

end BlockWorkbench
