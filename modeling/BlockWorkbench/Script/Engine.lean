import BlockWorkbench.Script.Evaluation

/-!
The engine that compiles scripts, runs them and calls their functions. A compiled unit is a
program, so units are put together by putting their statements together. What a script changes
before it fails stays changed.
-/

namespace BlockWorkbench.Script

/-- How much fuel a run of a script is given. -/
def fuelLimit : Nat := 10000000

/-- Why the engine gives no value. -/
inductive Failure where
  /-- The script does not compile, or failed. -/
  | script (text : Points)
  /-- Something else than the script is at fault. -/
  | fault (f : RuntimeFault)
  /-- The script raised an error that leaves the engine as it is. -/
  | escaped (kind : ErrorKind)
  /-- The fuel did not last. -/
  | unfinished

def SyntaxFault.message : SyntaxFault → String
  | .malformed => "invalid syntax"
  | .unexpectedIndent => "unexpected indent"
  | .missingBlock => "expected an indented block"
  | .unmatchedDedent => "unindent does not match any outer indentation level"
  | .tooManyBlocks => "too many levels of indentation"
  | .tabs => "inconsistent use of tabs and spaces in indentation"
  | .nullCharacter => "source code string cannot contain null bytes"

def SyntaxFault.kind : SyntaxFault → ErrorKind
  | .malformed => .syntaxError
  | .unexpectedIndent | .missingBlock | .unmatchedDedent | .tooManyBlocks => .indentation
  | .tabs => .tab
  | .nullCharacter => .value

/-- What is said of a text that is not a script. A null character has no place. -/
def SyntaxError.text (e : SyntaxError) : String :=
  let place := if e.fault = .nullCharacter then "" else s!" (<script>, line {e.row})"
  e.fault.kind.text ++ ": " ++ e.fault.message ++ place

/-- The unit that a source is. -/
def compileSource (source : Json) : Except Failure Program :=
  match source with
  | .str text =>
    match compile text with
    | .ok program => .ok program
    | .error f => .error (.script f.text)
  | _ => .error (.fault .notASource)

namespace Store

/-- What was raised, as an error object. -/
def errorOf (s : Store) : Raised → ErrorObject
  | .error a => s.error a
  | .fault f => f.toError

/-- The failure of a script that ended with an error. -/
def failureOf (s : Store) (e : ErrorObject) : Failure :=
  if e.kind.escapes then .escaped e.kind
  else
    match s.describe e with
    | .ok text => .script text
    | .error f => .fault f

/-- The error with a note behind its text: in its first argument, or in the second if it is a
system error with a number and a text. -/
def annotate (s : Store) (note : String) (e : ErrorObject) : Except RuntimeFault ErrorObject :=
  let noted (v : Value) : Except RuntimeFault Value := do
    return .str ((← s.plain v) ++ .ofString (" " ++ note))
  match e.args with
  | [] => .ok { e with args := [.str (.ofString note)] }
  | [number, text] =>
    if e.kind.isSystem then do return { e with args := [number, ← noted text] }
    else do return { e with args := [← noted number, text] }
  | v :: rest => do return { e with args := (← noted v) :: rest }

/-- The store after an error that was raised has become `e`. -/
def replaceError (s : Store) (raised : Raised) (e : ErrorObject) : Store :=
  match raised with
  | .error a => s.setError a e
  | .fault _ => s

end Store

/-- What a client gives for an argument: a value, or data that becomes one when the call is
made. -/
inductive Given where
  | value (v : Value)
  | data (v : Json Points)

/-- The value of an argument. -/
def Given.take : Given → Run Value
  | .value v => .value v
  | .data v => .make (·.ofJson v)

/-- Calls a function with what a client gives. -/
def callWith (fuel : Nat) (f : Value) (args : List Given) : Run Value := do
  call fuel f (← Run.each Given.take args)

namespace Machine

/-- Runs a unit. A complaint about a registration is passed on as it is. -/
def evalUnit (m : Machine) (fuel : Nat) (unit : Program) : Except Failure Value × Machine :=
  match evalProgram fuel unit m with
  | (.value v, m) => (.ok v, m)
  | (.raised (.fault f), m) =>
    if f.kind = .script then (.error (.script f.text), m)
    else (.error (m.store.failureOf f.toError), m)
  | (.raised r, m) => (.error (m.store.failureOf (m.store.errorOf r)), m)
  | (.exhausted, m) => (.error .unfinished, m)

/-- Compiles a source and runs it. -/
def evalSource (m : Machine) (fuel : Nat) (source : Json) : Except Failure Value × Machine :=
  match compileSource source with
  | .ok unit => m.evalUnit fuel unit
  | .error f => (.error f, m)

/-- The function at top level with a name that a client gave. -/
def findFunction (m : Machine) (name : Json) : Except Failure Value :=
  let notFound := Failure.script ("Function not found: " ++ name.plain)
  let notAFunction := Failure.script (name.literal ++ " is not a function")
  match name with
  | .list _ | .object _ => .error (.fault (.unhashable name.typeName))
  | .str n =>
    match bound? m.scope n with
    | none | some .none => .error notFound
    | some v => if v.isCallable then .ok v else .error notAFunction
  | _ => .error notFound

/-- Calls a function and notes in an error where it happened, unless the error escapes. -/
def callValue (m : Machine) (fuel : Nat) (f : Value) (name : Json) (args : List Given) :
    Except Failure Value × Machine :=
  match callWith fuel f args m with
  | (.value v, m) => (.ok v, m)
  | (.raised r, m) =>
    let raised := m.store.errorOf r
    if raised.kind.escapes then (.error (.escaped raised.kind), m)
    else
      match m.store.annotate ("in " ++ name.plain) raised with
      | .ok e => (.error (m.store.failureOf e), { m with store := m.store.replaceError r e })
      | .error f => (.error (.fault f), m)
  | (.exhausted, m) => (.error .unfinished, m)

/-- Calls a function of a unit by name. The definitions of the unit are made anew first, so the
function is there even if the names at top level were cleared. -/
def callFunction (m : Machine) (fuel : Nat) (unit : Program) (name : Json) (args : List Given) :
    Except Failure Value × Machine :=
  match (do Run.restoreNames; runAll fuel (unit.filter Stmt.isDefinition) : Run Unit) m with
  | (.value _, m) =>
    match m.findFunction name with
    | .ok f => m.callValue fuel f name args
    | .error f => (.error f, m)
  | (.raised r, m) => (.error (m.store.failureOf (m.store.errorOf r)), m)
  | (.exhausted, m) => (.error .unfinished, m)

/-- The names that users see. -/
def bindings (m : Machine) : List (String × Value) :=
  m.scope.filter fun e => !"__".isPrefixOf e.1

def clearScope (m : Machine) : Machine := { m with scope := [] }

def clearRegistry (m : Machine) : Machine := { m with registry := [] }

end Machine

end BlockWorkbench.Script
