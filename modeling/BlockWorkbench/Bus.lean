import BlockWorkbench.Message.Basic
import BlockWorkbench.Fault

/-!
The three channels between the editor and its workers: requests to either worker, and
notifications back. Each channel is first in, first out; nothing orders one against another.
-/

namespace BlockWorkbench

structure Bus (α : Type) where
  execution : List (Message α) := []
  streaming : List (Message α) := []
  outbound : List (Message α) := []
  deriving Repr

namespace Bus

variable {α : Type}

def sendExecution (b : Bus α) (m : Message α) : Bus α :=
  { b with execution := b.execution ++ [m] }

def sendStreaming (b : Bus α) (m : Message α) : Bus α :=
  { b with streaming := b.streaming ++ [m] }

def publish (b : Bus α) (m : Message α) : Bus α := { b with outbound := b.outbound ++ [m] }

def publishAll (b : Bus α) (ms : List (Message α)) : Bus α :=
  { b with outbound := b.outbound ++ ms }

/-- The next execution request, if one is waiting. -/
def receiveExecution (b : Bus α) : Except Fault (Message α) × Bus α :=
  match b.execution with
  | [] => (.error .queueEmpty, b)
  | m :: rest => (.ok m, { b with execution := rest })

/-- The next streaming request, if one is waiting. -/
def receiveStreaming (b : Bus α) : Except Fault (Message α) × Bus α :=
  match b.streaming with
  | [] => (.error .queueEmpty, b)
  | m :: rest => (.ok m, { b with streaming := rest })

/-- All waiting notifications in the order in which they were published. -/
def drain (b : Bus α) : List (Message α) × Bus α := (b.outbound, { b with outbound := [] })

end Bus

end BlockWorkbench
