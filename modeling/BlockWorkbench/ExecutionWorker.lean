import BlockWorkbench.BlockCache
import BlockWorkbench.Handling
import BlockWorkbench.Json.Convert
import BlockWorkbench.Message.Transport
import BlockWorkbench.Script.Engine

/-!
The worker that runs scripts. It keeps the names and objects that scripts make and the unit of
all scripts that succeeded. It takes one request at a time and answers each with messages; a
script that fails is reported. Besides a shutdown two things end the worker: a script that raises
an error which is no exception, and a request which cannot be dealt with and is nested too deep to
be noted in the journal.
-/

namespace BlockWorkbench

open Script (Value)

structure ExecutionWorker where
  machine : Script.Machine := {}
  unit : Script.Program := []

namespace ExecutionWorker

def source : String := "streamline.dataflow.worker"

abbrev Answer := Handled Value ExecutionWorker

/-- Says what came of a text, if there is one. -/
def sayText (w : ExecutionWorker) (lead : String) (text : Except Script.RuntimeFault Points) :
    Answer :=
  match text with
  | .ok t => .say w (lead ++ t)
  | .error _ => .giveUp w

/-- Says why the engine gave no value, if the script is at fault. -/
def sayFailure (w : ExecutionWorker) (lead : String) : Script.Failure → Answer
  | .script text => .say w (lead ++ text)
  | .escaped _ => .breakOff w
  | .fault _ | .unfinished => .giveUp w

/-- Runs a source behind the unit. It becomes part of the unit if it does not fail. -/
def evaluate (w : ExecutionWorker) (fuel : Nat) (source : Json) : Answer :=
  match Script.compileSource source with
  | .error f => sayFailure w "Result: Error: " f
  | .ok unit =>
    let merged := w.unit ++ unit
    match w.machine.evalUnit fuel merged with
    | (.ok v, m) => sayText ⟨m, merged⟩ "Result: " ((m.store.literal v).map .ofString)
    | (.error f, m) => sayFailure { w with machine := m } "Result: Error: " f

/-- The arguments of a request, if they can be run through. -/
def argumentsOf : Arguments → Except Fault (List Argument)
  | .listed items => .ok items
  | .other v => do return (← v.elements).map .given

/-- What the arguments that stand from `index` on give to a call, with a warning for each that is
not JSON and so is dropped. A slot or a name that is nested too deep cannot be written into a record
or a warning. -/
def readArguments (cache : BlockCache Value) (name : Json) (index : Nat) :
    List Argument → Except Unit (List Script.Given) × List (Message Value) × List Record
  | [] => (.ok [], [], [])
  | .cached slot :: rest =>
    if slot.isTooDeep then (.error (), [], [])
    else
      let (v, records) := cache.read .none slot
      let (given, messages, more) := readArguments cache name (index + 1) rest
      (given.map (.value v :: ·), messages, records ++ more)
  | .given text :: rest =>
    match text.readText with
    | .ok v =>
      let (given, messages, records) := readArguments cache name (index + 1) rest
      (given.map (.data v :: ·), messages, records)
    | .error f =>
      if f.kind = .recursion ∨ name.isTooDeep then (.error (), [], [])
      else
        let warning :=
          s!"Warning: dropped argument {index} of " ++ name.plain ++ ": " ++ f.message
        let (given, messages, records) := readArguments cache name (index + 1) rest
        (given, .text (.str warning) :: messages, records)

/-- Sends the value of a call, or its literal if it is not data. -/
def sendValue (w : ExecutionWorker) (v : Value) : Answer :=
  let s := w.machine.store
  match s.document v with
  | .ok _ => { worker := w, messages := [.json v] }
  | .error f =>
    if f.kind = .recursion then .giveUp w
    else
      match s.literal v with
      | .ok t => { worker := w, messages := [.json (.str (.ofString t))] }
      | .error _ => .giveUp w

/-- Calls a function of the unit with what a client gives. -/
def callWith (w : ExecutionWorker) (fuel : Nat) (name : Json) (given : List Script.Given) :
    Answer :=
  match w.machine.callFunction fuel w.unit name given with
  | (.ok v, m) => sendValue { w with machine := m } v
  | (.error f, m) => sayFailure { w with machine := m } "Error: " f

/-- Calls a function of the unit. -/
def evaluateFunction (w : ExecutionWorker) (fuel : Nat) (cache : BlockCache Value) (name : Json)
    (args : Arguments) : Answer :=
  match argumentsOf args with
  | .error _ => .giveUp w
  | .ok items =>
    let (given, warnings, records) := readArguments cache name 0 items
    let handled := match given with
      | .ok given => w.callWith fuel name given
      | .error () => .giveUp w
    { handled with
      messages := warnings ++ handled.messages
      records := records ++ handled.records }

/-- Forgets the names that scripts made, the unit and the registrations, or some of these. -/
def reset (w : ExecutionWorker) (clearScope clearUnit : Bool) : Answer :=
  let m := if clearScope then w.machine.clearScope else w.machine
  let w := if clearUnit then ⟨m.clearRegistry, []⟩ else { w with machine := m }
  { worker := w, messages := [.cleared] }

/-- The script that a build runs. -/
def buildSource : Json := .str "codegen()"

/-- Writes the manifest of the registered modules. -/
def build (w : ExecutionWorker) (fuel : Nat) : Answer :=
  match w.machine.evalSource fuel buildSource with
  | (.ok v, m) => sayText { w with machine := m } "Build result: " (m.store.plain v)
  | (.error f, m) => sayFailure { w with machine := m } "Build error: " f

def handle (w : ExecutionWorker) (fuel : Nat) (cache : BlockCache Value) :
    Message Value → Answer
  | .evaluate source => w.evaluate fuel source
  | .evaluateFunction name args => w.evaluateFunction fuel cache name args
  | .resetScope clearScope clearUnit => w.reset clearScope.isTruthy clearUnit.isTruthy
  | .build => w.build fuel
  | _ => .giveUp w

/-- Deals with a request; one that could not be dealt with is reported and dropped. -/
def step (fuel : Nat) (cache : BlockCache Value) (w : ExecutionWorker) (request : Message Value) :
    Answer :=
  let answer := w.handle fuel cache request
  answer.reported "Error: " request
    (request.failureRecord? source "execution request " answer.worker.machine.store)

/-- Takes up requests up to a shutdown, or up to one that breaks the worker off, and gives back
those behind it. -/
def run (fuel : Nat) (cache : BlockCache Value) (w : ExecutionWorker)
    (requests : List (Message Value)) : Answer × List (Message Value) :=
  Handled.run (step fuel cache) w requests

end ExecutionWorker

end BlockWorkbench
