import BlockWorkbench.Journal
import BlockWorkbench.Message.Basic

/-!
What both workers have in common: they take up one request after another, answer each with
messages, and stop at a shutdown. A request that cannot be dealt with is reported. What goes wrong
beyond that breaks the worker off: it says nothing more and leaves all further requests where they
are.
-/

namespace BlockWorkbench

/-- How a worker leaves a request. -/
inductive Ending where
  /-- It was dealt with. -/
  | done
  /-- It could not be dealt with. -/
  | undone
  /-- It broke the worker off. -/
  | broken
  deriving DecidableEq, Repr

/-- What came of a request to a worker of type `ω`: how it was left, and what was said on the
way. -/
structure Handled (α ω : Type) where
  worker : ω
  messages : List (Message α) := []
  records : List Record := []
  ending : Ending := .done

namespace Handled

variable {α ω : Type}

/-- An answer of one line. -/
def say (w : ω) (line : Points) : Handled α ω := { worker := w, messages := [.text (.str line)] }

/-- No answer: the request cannot be dealt with. -/
def giveUp (w : ω) : Handled α ω := { worker := w, ending := .undone }

/-- No answer: what went wrong leaves the worker. -/
def breakOff (w : ω) : Handled α ω := { worker := w, ending := .broken }

/-- Whether a worker is through: it has been told to stop, or was broken off. -/
def isOver (h : Handled α ω) : Bool := h.ending != .undone

/-- Reports a request that could not be dealt with, in words that follow `lead`. Its record is
written first; where that cannot be done, this breaks the worker off. -/
def reported (h : Handled α ω) (lead : String) (request : Message α) (record? : Option Record) :
    Handled α ω :=
  match h.ending, record? with
  | .undone, some record =>
    { h with
      messages := h.messages
        ++ [.text (.str (lead ++ "internal failure handling " ++ request.className))]
      records := h.records ++ [record] }
  | .undone, none => { h with ending := .broken }
  | _, _ => h

/-- One thing after another: what was said first comes first. -/
def followedBy (first later : Handled α ω) : Handled α ω :=
  { later with
    messages := first.messages ++ later.messages
    records := first.records ++ later.records }

/-- Takes up requests up to a shutdown, or up to one that breaks the worker off, and gives back
those behind it. -/
def run (step : ω → Message α → Handled α ω) (w : ω) :
    List (Message α) → Handled α ω × List (Message α)
  | [] => (giveUp w, [])
  | request :: rest =>
    if request.isShutdown then ({ worker := w }, rest)
    else
      let first := step w request
      if first.ending = .broken then (first, rest)
      else
        let (later, rest) := run step first.worker rest
        (first.followedBy later, rest)

end Handled

end BlockWorkbench
