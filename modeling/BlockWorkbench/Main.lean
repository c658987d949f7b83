import BlockWorkbench.Launch
import BlockWorkbench.Server.Line

/-!
The program: it takes its options from the command line and answers requests from standard input,
one a line. What a session writes goes to the disk, and what it records to standard error.
-/

namespace BlockWorkbench.Terminal

/-- The file of a configuration, if there is one. -/
def readConfiguration (o : CommandLine) : IO Files := do
  match o.configFile with
  | none => return {}
  | some path =>
    try return { texts := [(path, ← IO.FS.readFile path)] }
    catch _ => return {}

/-- Writes the texts that were not there before. -/
def writeNew (before after : Files) : IO Unit := do
  for (path, text) in after.texts do
    if before.text? path != some text then
      try IO.FS.writeFile path text
      catch e => IO.eprintln (toString e)

/-- Shows the records that were not there before. -/
def showNew (before after : Journal) : IO Unit := do
  for r in after.records.drop before.records.length do IO.eprintln r.text

/-- Answers requests until there are no more, and stops the session. -/
partial def answerLines (input : IO.FS.Stream) (s : Server) : IO Unit := do
  let line ← input.getLine
  let (shown, next) ←
    if line.isEmpty then pure ("", { s with api := s.api.stopSession })
    else
      let (response, next) := s.answer (Server.Request.ofLine line)
      pure (response.line, next)
  writeNew s.api.files next.api.files
  showNew s.api.journal next.api.journal
  unless line.isEmpty do
    IO.println shown
    (← IO.getStdout).flush
    answerLines input next

/-- Starts a session as the options say and answers requests to it. -/
def run (o : CommandLine) : IO UInt32 := do
  let files ← readConfiguration o
  let folders := ["", Launch.scriptFolder files o]
  let tokenName := Launch.tokenVariable files o
  let token := (← IO.getEnv tokenName).map fun t => (tokenName, t)
  match Launch.start token.toList { files with folders } o with
  | .error f =>
    IO.eprintln (f.kind.text ++ ": " ++ f.message)
    return 1
  | .ok l =>
    showNew {} l.server.api.journal
    answerLines (← IO.getStdin) l.server
    return 0

end BlockWorkbench.Terminal

open BlockWorkbench in
def main (arguments : List String) : IO UInt32 := do
  match CommandLine.read arguments with
  | .error .help =>
    IO.println CommandLine.help
    return 0
  | .error (.complaint c) =>
    IO.eprintln CommandLine.usage
    IO.eprintln ("streamline: error: " ++ c.message)
    return 2
  | .ok o => Terminal.run o
