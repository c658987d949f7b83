import BlockWorkbench.Bus
import BlockWorkbench.Journal
import BlockWorkbench.Message.Literal
import BlockWorkbench.Script.Sending

/-!
Notifications in the form in which clients get them, and the values of messages kept in a store.
-/

namespace BlockWorkbench.Message

variable {α β σ : Type}

/-- A notification as a document, where `send` makes documents of values. -/
def transport (send : α → Except Fault Document) : Message α → Except Fault Document
  | text t => .ok (.fields [("kind", .str "text"), ("text", .ofJson t)])
  | json v => do return .fields [("kind", .str "json"), ("value", ← send v)]
  | blockCacheUpdated slot v => do
    return .fields [("kind", .str "block"), ("slot", .ofJson slot), ("value", ← send v)]
  | cleared => .ok (.fields [("kind", .str "cleared")])
  | m => .error (.unknownMessage m.classPath)

/-- A message with its value replaced, where `keep` may change a state. -/
def withValues (keep : σ → α → β × σ) (state : σ) : Message α → Message β × σ
  | json v => let (v, state) := keep state v; (json v, state)
  | blockCacheUpdated slot v =>
    let (v, state) := keep state v
    (blockCacheUpdated slot v, state)
  | evaluate source => (evaluate source, state)
  | evaluateFunction name args => (evaluateFunction name args, state)
  | resetScope a b => (resetScope a b, state)
  | build => (build, state)
  | runRange r => (runRange r, state)
  | fetchBlock r => (fetchBlock r, state)
  | text t => (text t, state)
  | cleared => (cleared, state)
  | shutdown => (shutdown, state)
  | cacheRef slot => (cacheRef slot, state)
  | other v => (other v, state)

/-- Whether a message is nested too deep to be written as a call. -/
def isTooDeep (s : Script.Store) (m : Message Script.Value) : Bool :=
  m.parts.any Json.isTooDeep || m.value?.any fun v =>
    match s.literal v with
    | .error .tooDeep => true
    | _ => false

/-- A message as a call, its value read in a store. -/
def literalIn (s : Script.Store) (m : Message Script.Value) : String :=
  m.literal fun v => (s.literal v).toOption.getD ""

/-- The record of a request that `source` could not deal with, in words that follow `lead`. A
request that is nested too deep has none. -/
def failureRecord? (source lead : String) (s : Script.Store) (request : Message Script.Value) :
    Option Record :=
  if request.isTooDeep s then none
  else some ⟨.error, source, lead ++ request.literalIn s ++ " failed"⟩

end BlockWorkbench.Message
