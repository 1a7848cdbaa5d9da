/-
# Watching from a console

The command line and the settings files lead to a watch, or to a reason why
there is none. A watch is a session whose pacer runs from the first turn of
the loop on, and whose change signal logs what is stored. An interrupt stops
the pacer; a watch interrupted before its first turn has done nothing.

Log records of the lowest level are shown only if the options ask for it.

Key definitions: `Launch`, `Launch.ofOptions`, `Watch.start`, `Watch.step`,
`Watch.shows`.
-/
import DiagnosticWatch.CommandLine.Options
import DiagnosticWatch.Session.Run
import DiagnosticWatch.Settings.Load

namespace DiagnosticWatch

/-- What options and settings files lead to. -/
inductive Launch where
  /-- A watch with settings. -/
  | watch (settings : Settings)
  /-- The settings are refused, which is told. -/
  | refused (e : SettingsError)
  /-- A setting is of the wrong type or a settings file is out of reach, which nobody deals
  with. -/
  | failed (e : SettingsError)
deriving Repr

namespace Launch

/-- What an error of the settings leads to. -/
def ofError (e : SettingsError) : Launch :=
  if e.isMistyped then .failed e else .refused e

/-- What options lead to with these settings files, and what is told on the way. -/
def ofOptions (o : Options) (globalFile localFile : SettingsFile) : Launch × List Notice :=
  match Settings.load globalFile localFile with
  | (.error e, notices) => (.failed e, notices)
  | (.ok settings, notices) =>
    match settings.overlaid o.members with
    | .ok settings => (.watch settings, notices)
    | .error e => (ofError e, notices)

/-- The wording of refused settings. -/
def refusal (e : SettingsError) : String :=
  s!"Invalid configuration: {e.message}"

end Launch

namespace Watch

/-- The least important level that is shown. -/
def threshold (verbose : Bool) : Level :=
  if verbose then .debug else .info

/-- Whether a record of some level is shown. -/
def shows (verbose : Bool) (level : Level) : Bool :=
  verbose || level ≠ .debug

/-- Logs what is stored whenever it changes. -/
def reporter : Listener Request :=
  ⟨0, "report", fun _ => [.ask .logReports], none⟩

/-- A watch that has done nothing. -/
def start (settings : Settings) (outcomes : List Outcome) : Session :=
  let s := Session.start settings settings .empty outcomes none
  { s with
    known := [reporter]
    link := { s.link with signal := { s.link.signal with listeners := [reporter] } } }

/-- What happens to a watch. -/
inductive Step where
  /-- The loop runs while seconds pass. -/
  | pass (seconds : Number)
  /-- The peer or the transport does something. -/
  | peer (request : Request)
  | interrupt

/-- Takes a step; the first one that lets the loop run starts the pacer. -/
def step (s : Session) : Step → Answer × Session
  | .pass seconds =>
    let s := if s.isRunning then s else (s.step (.ask .start)).2
    s.step (.pass seconds)
  | .peer request => s.step (.ask request)
  | .interrupt => if s.isRunning then s.step .stop else (.nothing, s)

end Watch
end DiagnosticWatch
