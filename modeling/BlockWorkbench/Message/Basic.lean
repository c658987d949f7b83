import BlockWorkbench.Json.Literal

/-!
The messages that pass between the editor and its two workers. Requests ask a worker to do
something, notifications tell the editor what came of it. Requests come from clients, so their
fields may hold any JSON value. Values that notifications carry have a type `α` of their own.
-/

namespace BlockWorkbench

/-- An argument of a function call: JSON text, or what a slot of the block cache holds when the
call is made. -/
inductive Argument where
  | given (text : Json)
  | cached (slot : Json)
  deriving Repr

/-- The arguments of a call: a list, or some other value that a client gave. -/
inductive Arguments where
  | listed (items : List Argument)
  | other (v : Json)
  deriving Repr

def Argument.content : Argument → Json
  | given text => text
  | cached slot => slot

def Arguments.parts : Arguments → List Json
  | listed items => items.map Argument.content
  | other v => [v]

/-- A range of records of one module. -/
structure RangeRequest where
  start : Json
  stop : Json
  endpoint : Json
  package : Json
  moduleName : Json
  token : Json := .null
  deriving Repr

def RangeRequest.parts (r : RangeRequest) : List Json :=
  [r.start, r.stop, r.endpoint, r.package, r.moduleName, r.token]

/-- One block, for a slot of the cache. -/
structure BlockRequest where
  blockNumber : Json
  endpoint : Json
  token : Json := .null
  cacheSlot : Json := .int 1
  deriving Repr

inductive Message (α : Type) where
  -- requests for the execution worker
  | evaluate (source : Json)
  | evaluateFunction (name : Json) (args : Arguments)
  | resetScope (clearScope clearCompiledUnit : Json)
  | build
  -- requests for the streaming worker
  | runRange (request : RangeRequest)
  | fetchBlock (request : BlockRequest)
  -- notifications
  | text (text : Json Points)
  | json (value : α)
  | blockCacheUpdated (slot : Json) (value : α)
  | cleared
  -- for either worker
  | shutdown
  -- what clients may send besides
  | cacheRef (slot : Json)
  | other (v : Json)
  deriving Repr

namespace Message

variable {α : Type}

def className : Message α → String
  | evaluate _ => "Evaluate"
  | evaluateFunction .. => "EvaluateFunction"
  | resetScope .. => "ResetScope"
  | build => "Build"
  | runRange _ => "RunRange"
  | fetchBlock _ => "FetchSingleBlock"
  | text _ => "TextMessage"
  | json _ => "JsonMessage"
  | blockCacheUpdated .. => "BlockCacheUpdated"
  | cleared => "MessagesCleared"
  | shutdown => "Shutdown"
  | cacheRef _ => "CacheRef"
  | other v => v.typeName

/-- The full name of the class of a message. -/
def classPath : Message α → String
  | other v => v.typeName
  | m => "streamline.dataflow.messages." ++ m.className

/-- The JSON values that a message is made of. -/
def parts : Message α → List (Json Points)
  | evaluate source => [source.spelled]
  | evaluateFunction name args => (name :: args.parts).map Json.spelled
  | resetScope clearScope clearUnit => [clearScope, clearUnit].map Json.spelled
  | runRange r => r.parts.map Json.spelled
  | fetchBlock b => [b.blockNumber, b.endpoint, b.token, b.cacheSlot].map Json.spelled
  | text t => [t]
  | blockCacheUpdated slot _ | cacheRef slot => [slot.spelled]
  | other v => [v.spelled]
  | build | json _ | cleared | shutdown => []

/-- The value that a notification carries. -/
def value? : Message α → Option α
  | json v | blockCacheUpdated _ v => some v
  | _ => none

def isShutdown : Message α → Bool
  | shutdown => true
  | _ => false

def isCleared : Message α → Bool
  | cleared => true
  | _ => false

end Message

end BlockWorkbench
