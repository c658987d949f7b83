import BlockWorkbench.Editor.Basic
import BlockWorkbench.Text.LowerCase
import BlockWorkbench.Text.Search

/-!
The message log of a session. It holds, in the order in which they were published, the messages
since the last clearing. A search ignores case; it looks through the text of a message, and
through the JSON text of a value.
-/

namespace BlockWorkbench.Editor

open Script (Value)

/-- The log after some messages: a clearing empties it. -/
def extend (log : List (Message Value)) (messages : List (Message Value)) :
    List (Message Value) :=
  messages.foldl (fun log m => if m.isCleared then [] else log ++ [m]) log

/-- Moves waiting messages into the log, returning them. -/
def poll (e : Editor) : List (Message Value) × Editor :=
  let (waiting, bus) := e.bus.drain
  (waiting, { e with bus, log := extend e.log waiting })

/-- Null, an empty list or an empty dictionary. -/
def isEmptyValue (s : Script.Store) : Value → Bool
  | .none => true
  | .list a => (s.items a).isEmpty
  | .dict a => (s.entries a).isEmpty
  | _ => false

/-- The text of a value in which a search looks. Parts that are not data are searched as their
literals. -/
def valueText (s : Script.Store) (v : Value) : Except Fault String :=
  ((s.quotingDocument v).mapError Script.Store.sendingFault).map (·.toJson.text)

/-- What a search looks through. -/
def searchedText (s : Script.Store) : Message Value → Except Fault (Json Points)
  | .json v | .blockCacheUpdated _ v => do return .str (← valueText s v)
  | .text t => .ok t
  | _ => .ok (.str "")

def lowered : Json Points → Except Fault Points
  | .str t => .ok t.lower
  | v => .error (.noAttribute v.typeName "lower")

/-- Whether a message holds a value that is empty. -/
def isEmptyMessage (s : Script.Store) : Message Value → Bool
  | .json v => isEmptyValue s v
  | _ => false

/-- Whether a message is to be shown. -/
def isShown (s : Script.Store) (search : Json Points) (hideEmpty : Bool) (m : Message Value) :
    Except Fault Bool :=
  if hideEmpty && isEmptyMessage s m then .ok false
  else do
    let text ← searchedText s m
    if !search.isTruthy then return true
    let part ← lowered search
    return Text.occursIn part (← lowered text)

/-- The messages of a log that are to be shown. -/
def shownMessages (s : Script.Store) (search : Json Points) (hideEmpty : Bool) :
    List (Message Value) → Except Fault (List (Message Value))
  | [] => .ok []
  | m :: rest => do
    let shown ← isShown s search hideEmpty m
    let others ← shownMessages s search hideEmpty rest
    return if shown then m :: others else others

/-- Polls, and returns the messages of the log that are to be shown. -/
def messages (e : Editor) (search : Json Points) (hideEmpty : Bool) : Reply (List (Message Value)) :=
  let (_, e) := e.poll
  { result := shownMessages e.store search hideEmpty e.log, editor := e }

/-- Publishes a message as if a worker had. -/
def publish (e : Editor) (m : Message Value) : Editor := { e with bus := e.bus.publish m }

/-- Publishes a clearing, which empties the log when it is polled. -/
def clearMessages (e : Editor) : Editor := e.publish .cleared

end BlockWorkbench.Editor
