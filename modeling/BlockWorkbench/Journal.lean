import BlockWorkbench.Json.Basic

/-!
The journal of a session: records at or above a level, in the order they were made.
-/

namespace BlockWorkbench

inductive Severity where
  | debug
  | info
  | warning
  | error
  deriving DecidableEq, Repr

namespace Severity

def rank : Severity → Int
  | debug => 10
  | info => 20
  | warning => 30
  | error => 40

def text : Severity → String
  | debug => "DEBUG"
  | info => "INFO"
  | warning => "WARNING"
  | error => "ERROR"

end Severity

/-- One entry: how severe it is, the part of the program it comes from, and what it says. -/
structure Record where
  severity : Severity
  source : String
  message : String
  deriving DecidableEq, Repr

def Record.text (r : Record) : String :=
  r.severity.text ++ " " ++ r.source ++ ": " ++ r.message

/-- A level: the lowest rank that is kept, and how it is shown. -/
structure Level where
  rank : Int
  shown : Json
  deriving Repr

namespace Level

def ofInt (n : Int) : Level := ⟨n, .int n⟩

/-- The level at which warnings are kept and all that is less severe is not. -/
def warning : Level := ofInt Severity.warning.rank

end Level

structure Journal where
  /-- What is kept; the rank zero leaves the choice to `fallback`. -/
  level : Level := .warning
  fallback : Level := .warning
  records : List Record := []
  deriving Repr

namespace Journal

def threshold (j : Journal) : Int :=
  if j.level.rank = 0 then j.fallback.rank else j.level.rank

def note (j : Journal) (r : Record) : Journal :=
  if j.threshold ≤ r.severity.rank then { j with records := j.records ++ [r] } else j

def noteAll (j : Journal) (rs : List Record) : Journal := rs.foldl note j

end Journal

end BlockWorkbench
