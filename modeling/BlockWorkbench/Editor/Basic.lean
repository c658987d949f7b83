import BlockWorkbench.Files
import BlockWorkbench.Graph.Operation
import BlockWorkbench.Settings
import BlockWorkbench.StreamingWorker

/-!
An editing session: a graph with its owner, the channels, both workers, and the log of what they
said. A session is started once and stopped once. Requests that are sent before the start wait
for it; requests that are sent after the stop wait for ever.
-/

namespace BlockWorkbench

open Script (Value)

/-- Which parts of a session have been started, and which have been told to stop or have done
so. -/
structure Activity where
  started : Bool := false
  ownerStopped : Bool := false
  executionStopped : Bool := false
  streamingStopped : Bool := false
  deriving DecidableEq, Repr

namespace Activity

def ownerAlive (a : Activity) : Bool := a.started && !a.ownerStopped

def executionAlive (a : Activity) : Bool := a.started && !a.executionStopped

def streamingAlive (a : Activity) : Bool := a.started && !a.streamingStopped

/-- Whether the owner, the execution worker and the streaming worker are at work. -/
def alive (a : Activity) : List Bool := [a.ownerAlive, a.executionAlive, a.streamingAlive]

end Activity

structure Editor where
  settings : Settings
  graph : Graph := .starter
  bus : Bus Value := {}
  execution : ExecutionWorker := {}
  streaming : StreamingWorker
  /-- What has been said since the last clearing. -/
  log : List (Message Value) := []
  files : Files := {}
  activity : Activity := {}

namespace Editor

/-- What came of a call: its result, the session after it, and what was noted on the way. -/
structure Reply (α : Type) where
  result : Except Fault α
  editor : Editor
  records : List Record := []

def source : String := "streamline.dataflow.session"

def fuel : Nat := Script.fuelLimit

/-- The objects that values of the session are made of. -/
def store (e : Editor) : Script.Store := e.execution.machine.store

def withStore (e : Editor) (store : Script.Store) : Editor :=
  { e with execution := { e.execution with machine := { e.execution.machine with store } } }

def cache (e : Editor) : BlockCache Value := e.streaming.cache

/-- Lets the execution worker take up what it was sent. -/
def settleExecution (e : Editor) : Editor × List Record :=
  if e.activity.executionAlive then
    let (answer, rest) := e.execution.run fuel e.cache e.bus.execution
    ({ e with
        execution := answer.worker
        bus := { e.bus with execution := rest }.publishAll answer.messages
        activity := { e.activity with executionStopped := answer.isOver } },
      answer.records)
  else (e, [])

/-- Lets the streaming worker take up what it was sent. -/
def settleStreaming (e : Editor) : Editor × List Record :=
  if e.activity.streamingAlive then
    let (answer, rest) := { e.streaming with store := e.store }.run e.bus.streaming
    ({ e with
        streaming := answer.worker
        bus := { e.bus with streaming := rest }.publishAll answer.messages
        activity := { e.activity with streamingStopped := answer.isOver } }.withStore
      answer.worker.store, answer.records)
  else (e, [])

/-- Lets both workers take up what they were sent. -/
def settle (e : Editor) : Reply Unit :=
  let (e, first) := e.settleExecution
  let (e, later) := e.settleStreaming
  { result := .ok (), editor := e, records := first ++ later }

def sendExecution (e : Editor) (request : Message Value) : Reply Unit :=
  { e with bus := e.bus.sendExecution request }.settle

def sendStreaming (e : Editor) (request : Message Value) : Reply Unit :=
  { e with bus := e.bus.sendStreaming request }.settle

/-- Starts the session, which can be done once. -/
def start (e : Editor) : Reply Unit :=
  if e.activity.started then { result := .error .startedTwice, editor := e }
  else { e with activity := { e.activity with started := true } }.settle

/-- Tells every part of the session to stop when it has done what it was sent. -/
def stop (e : Editor) : Reply Unit :=
  { e with
    bus := (e.bus.sendExecution .shutdown).sendStreaming .shutdown
    activity := { e.activity with ownerStopped := true } }.settle

/-- Has the owner of the graph do something with it. -/
def ask {α : Type} (e : Editor) (act : Graph → Except Fault α × Graph) : Reply α :=
  if e.activity.ownerAlive then
    let (result, graph) := act e.graph
    { result, editor := { e with graph } }
  else { result := .error .unanswered, editor := e }

/-- Has the owner look at the graph. -/
def look {α : Type} (e : Editor) (view : Graph → Except Fault α) : Except Fault α :=
  if e.activity.ownerAlive then view e.graph else .error .unanswered

end Editor

end BlockWorkbench
