/-
# The pacer

The pacer ticks the link. While there is no connection it asks for one, at
most once per retry interval and only if the probe says that the server is
likely to be there. After every tick the change signal is polled. A tick that
begins while another is under way is skipped, and one that fails drops the
connection.

Key definitions: `Session.paceTick`, `Session.interval`, `Session.runTicker`,
`Session.startTicker`, `Session.stop`.
-/
import DiagnosticWatch.Session.Link

namespace DiagnosticWatch
namespace Session

variable (ask : Request → Act Session Answer)

/-- The seconds until the next tick. -/
def interval (s : Session) : Number :=
  if s.isUp ∨ s.phase = .connecting then s.pacer.settings.connectedInterval
  else s.pacer.settings.retryInterval

/-- What the probe will answer next: yes, unless it is laid down otherwise. -/
def nextAnswer (s : Session) : Option Json :=
  (s.pacer.probe.getD []).headD (some (.number (.truth true)))

/-- Asks whether the server is likely to be there; a probe that fails says no. -/
def probe : Act Session Bool := do
  let s ← get
  onPacer fun p => { p with probe := p.probe.map List.tail }
  tell (.probe s.nextAnswer s.loop.now)
  match s.nextAnswer with
  | some value => return value.isTrue
  | none =>
    log .debug "Backend probe failed: process table unavailable"
    return false

/-- Whether a connect attempt may be made again. -/
def mayRetry (s : Session) : Bool :=
  match s.pacer.lastAttempt with
  | none => true
  | some last => !s.pacer.settings.retryInterval.above (s.loop.now - last)

/-- Connects, if it is time and the server is likely to be there. -/
def maybeConnect : Act Session Unit := do
  let s ← get
  if s.mayRetry then
    onPacer fun p => { p with lastAttempt := some s.loop.now }
    if ← probe then
      onPacer fun p => { p with attempts := p.attempts + 1 }
      tell (.retry s.pacer.settings.host s.pacer.settings.port)
      connect ask s.pacer.settings.host s.pacer.settings.port

/-- Ticks the link and connects if there is no connection; whatever fails there drops
the connection. Then polls the change signal. -/
def tickOnce : Act Session Unit := do
  tell .pacing
  let upkeep : Act Session Unit := do
    tick ask
    let s ← get
    tell (.upkept s.phase)
    if s.phase = .disconnected then maybeConnect ask
  upkeep.rescue Fault.isOrdinary fun _ => do
    log .error "Unexpected error while ticking the debug client"
    disconnect ask false
  let _ ← poll ask

/-- Runs `act` as the only tick under way. -/
def exclusively {α : Type} (act : Act Session α) : Act Session α := do
  onPacer fun p => { p with busy := true }
  act.ensuring fun s => { s with pacer := { s.pacer with busy := false } }

/-- Ticks, unless a tick is under way or the pacer is stopped; answers whether it
did. -/
def paceTick : Act Session Bool := do
  if (← get).pacer.busy then
    log .debug "Skipping overlapping tick"
    return false
  exclusively do
    if (← get).pacer.stopped then return false
    tickOnce ask
    return true

/-! ## The ticker -/

/-- Whether the ticker has been started and has not ended. -/
def isRunning (s : Session) : Bool :=
  match s.pacer.ticker with
  | .absent | .ended | .failed => false
  | _ => true

/-- Begins to wait for the next tick. A ticker that was cancelled while it ticked ends
when it runs next, and one whose interval is too large for a timer fails. -/
def awaitTick : Act Session Unit := do
  let s ← get
  let wait : Act Session Unit := do
    arm s.interval .ticker
    tell (.wait s.interval s.loop.now)
    match s.pacer.ticker with
    | .ticking => onPacer fun p => { p with ticker := .waiting }
    | .cancelling => enqueue .ticker
    | _ => pure ()
  wait.rescue Fault.isOrdinary fun _ => onPacer fun p => { p with ticker := .failed }

/-- Ticks and begins to wait for the next tick. A ticker that is being cancelled ends
instead. -/
def runTicker : Act Session Unit := do
  match (← get).pacer.ticker with
  | .fresh | .waiting =>
    onPacer fun p => { p with ticker := .ticking }
    let _ ← paceTick ask
    awaitTick
  | .cancelling =>
    onPacer fun p => { p with ticker := .ended }
    disarm .ticker
  | _ => pure ()

/-- Starts the ticker, unless it runs. -/
def startTicker : Act Session Unit := do
  let s ← get
  if !s.isRunning then
    onPacer fun p => { p with stopped := false, ticker := .fresh }
    enqueue .ticker
    log .info s!"Tick scheduler started for {s.pacer.settings.host}:{s.pacer.settings.port.text}"

/-- Cancels the ticker, which ends when it runs next or would begin to wait; answers
whether it has not ended yet. -/
def cancelTicker : Act Session Bool := do
  match (← get).pacer.ticker with
  | .fresh | .ticking =>
    onPacer fun p => { p with ticker := .cancelling }
    return true
  | .waiting =>
    onPacer fun p => { p with ticker := .cancelling }
    enqueue .ticker
    return true
  | .cancelling => return true
  | .ended | .failed => return false
  | .absent => throw .noTicker

/-- Ends the ticker and drops the connection, telling the peer. The failure of a ticker
that has failed is passed on, and nothing is dropped. That the ticker is waited for and that
the connection is dropped are one act, with no turn of the loop between them: a ticker that is
started anew in such a turn cannot be expressed. -/
def stop : Act Session Unit := do
  if (← get).pacer.ticker = .failed then throw .overflow
  onPacer fun p => { p with ticker := .absent }
  disarm .ticker
  exclusively do
    onPacer fun p => { p with stopped := true }
    disconnect ask true
  log .info "Tick scheduler stopped"

end Session
end DiagnosticWatch
