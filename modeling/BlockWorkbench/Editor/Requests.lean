import BlockWorkbench.Editor.Modules

/-!
What a session has its workers do: evaluate scripts, call functions, build, and fetch records.
-/

namespace BlockWorkbench.Editor

/-- Evaluates a source. -/
def evaluate (e : Editor) (source : Json) : Reply Unit := e.sendExecution (.evaluate source)

/-- Evaluates the script of the whole graph. -/
def evaluateGraph (e : Editor) : Reply Unit :=
  match e.script with
  | .ok text => e.evaluate (.str text)
  | .error f => { result := .error f, editor := e }

/-- Evaluates the code of one module on its own. -/
def evaluateModule (e : Editor) (id : Json) : Reply Unit :=
  match e.look (·.fetch id) with
  | .ok (some m) => e.evaluate m.code
  | .ok none => { result := .error (.missingModule id), editor := e }
  | .error f => { result := .error f, editor := e }

/-- Calls a function with arguments that are JSON text or slots of the cache. -/
def callFunction (e : Editor) (name : Json) (args : List Argument) : Reply Unit :=
  e.sendExecution (.evaluateFunction name (.listed args))

def build (e : Editor) : Reply Unit := e.sendExecution .build

/-- Forgets names or the compiled unit, or both. -/
def reset (e : Editor) (clearScope clearUnit : Json) : Reply Unit :=
  e.sendExecution (.resetScope clearScope clearUnit)

def tokenOf (e : Editor) : Json := e.settings.token.elim .null .str

/-- Fetches a range of records; what is not given comes from the settings. -/
def runStream (e : Editor) (start stop moduleName : Json) : Reply Unit :=
  let s := e.settings
  e.sendStreaming (.runRange {
    start := (given? start).getD (.int s.startBlock)
    stop := (given? stop).getD (.int s.stopBlock)
    endpoint := s.endpoint, package := s.package
    moduleName := (given? moduleName).getD s.moduleName, token := e.tokenOf })

/-- Fetches one block for a slot of the cache. -/
def fetchBlock (e : Editor) (blockNumber cacheSlot : Json) : Reply Unit :=
  e.sendStreaming (.fetchBlock {
    blockNumber, endpoint := e.settings.endpoint, token := e.tokenOf, cacheSlot })

end BlockWorkbench.Editor
