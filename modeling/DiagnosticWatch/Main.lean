/-
# The console program

Reads the command line and the settings files, and rehearses a watch: the
debug server opens the connection at once, and what it sends is read from
standard input. Time passes by one tick for every chunk that was read; the end
of the input interrupts the watch. Log records go to standard error. The exit
code is 2 for options and settings that are refused.

Key definitions: `main`.
-/
import DiagnosticWatch.Watch

namespace DiagnosticWatch
namespace Console

/-- Shows a log record. -/
def printLog (level : Level) (text : String) : IO Unit :=
  IO.eprintln s!"{level.name} {text}"

/-- Shows the log records among events. -/
def showEvents (verbose : Bool) (events : List Event) : IO Unit :=
  events.forM fun e => match e with
    | .log level text => if Watch.shows verbose level then printLog level text else pure ()
    | _ => pure ()

/-- What is found at a path that is looked up first. A path through what is no directory
leads nowhere. -/
def contentAt (path : String) : IO Content := do
  try
    discard <| IO.FS.realPath path
  catch
    | .noFileOrDirectory .. | .inappropriateType .. => return .missing
    | e => return .unreachable e.toString
  try
    return .bytes (← IO.FS.readBinFile path).toList
  catch _ => return .unreadable

/-- The settings file of a directory. -/
def readSettings (directory : String) : IO SettingsFile := do
  let path := directory ++ "/.angelscript-link/link.json"
  return ⟨path, ← contentAt path⟩

/-- Takes a step and shows what it logged. -/
def advance (verbose : Bool) (s : Session) (step : Watch.Step) : IO Session := do
  let n := s.trace.size
  let (_, s) := Watch.step s step
  showEvents verbose (s.trace.since n)
  return s

/-- Feeds the watch from standard input until that ends. -/
partial def feed (verbose : Bool) (input : IO.FS.Stream) (s : Session) : IO Session := do
  let chunk ← input.read 4096
  if chunk.isEmpty then return s
  let s ← advance verbose s (.peer (.data chunk.toList none))
  feed verbose input (← advance verbose s (.pass s.interval))

/-- Watches what standard input holds. -/
def watch (verbose : Bool) (settings : Settings) : IO Unit := do
  let server : Outcome := ⟨.opens, .int 0, .none, [], false, []⟩
  let s ← advance verbose (Watch.start settings [server]) (.pass (.int 0))
  let s ← feed verbose (← IO.getStdin) s
  let s ← advance verbose s (.pass settings.debounce)
  let s ← advance verbose s (.pass s.interval)
  let _ ← advance verbose s .interrupt

/-- Runs options, and answers the exit code. -/
def run (o : Options) : IO UInt32 := do
  let home := (← IO.getEnv "HOME").getD "."
  let globalFile ← readSettings home
  let localFile ← match o.directory? with
    | some directory => readSettings directory
    | none => pure ⟨"", .missing⟩
  let (launch, notices) := Launch.ofOptions o globalFile localFile
  notices.forM fun n => printLog .warning n.message
  match launch with
  | .watch settings =>
    watch o.verbose settings
    return 0
  | .refused e =>
    printLog .error (Launch.refusal e)
    return 2
  | .failed e =>
    IO.eprintln e.message
    return 1

end Console
end DiagnosticWatch

open DiagnosticWatch in
/-- Runs the program. -/
def main (args : List String) : IO UInt32 := do
  match Options.read args with
  | .error e =>
    IO.eprintln e.lastLine
    return 2
  | .ok none =>
    IO.println
      "usage: angelscript-link [-h] [--host HOST] [--port PORT] [--config-dir CONFIG_DIR] [-v]"
    return 0
  | .ok (some o) => Console.run o
