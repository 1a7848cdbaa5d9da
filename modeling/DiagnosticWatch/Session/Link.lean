/-
# The link

The link owns the one connection to the debug server and what was read from
it. Errors of the connection do not reach whoever asks: they end in the phase
`disconnected`. Dropping the connection forgets every report, since after a
reconnect the server tells them anew, and signals that if there were any.

Listeners run in the middle of the link's work and may ask the session for
anything; `ask` answers such a request.

Key definitions: `Session.connect`, `Session.disconnect`, `Session.send`,
`Session.tick`, `Session.beginDial`, `Session.resumeDial`.
-/
import DiagnosticWatch.Report.Payload
import DiagnosticWatch.Session.Dial

namespace DiagnosticWatch

/-- The name of a request in a trace. -/
def Request.name : Request → String
  | .data .. => "data"
  | .endOfInput _ => "eof"
  | .lose .. => "lost"
  | .setWrites .. => "write_mode"
  | .setClosing _ => "closing"
  | .connect .. => "connect"
  | .connectUnlooped .. => "connect_no_loop"
  | .disconnect _ => "disconnect"
  | .tick => "tick"
  | .send _ => "send"
  | .get _ => "get"
  | .all => "all"
  | .put .. => "upsert"
  | .describe => "repr"
  | .logReports => "report"
  | .mark => "mark"
  | .poll => "poll"
  | .fire => "fire"
  | .subscribe .. => "subscribe"
  | .unsubscribe _ => "unsubscribe"
  | .onState .. => "on_state"
  | .paceTick => "sched_tick"
  | .paceTickUnlooped => "sched_tick_no_loop"
  | .interval => "interval"
  | .attempts => "attempts"
  | .start => "start"
  | .running => "running"
  | .cancelTicker => "cancel_ticker"

namespace Session

variable (ask : Request → Act Session Answer)

/-- Calls a state listener. -/
def callState (l : Listener Request) (old new : Phase) : Act Session Unit := do
  tell (.state l.name old new)
  if l.only.all (· = new) then l.perform Request.name ask

/-- Goes to another phase. -/
def moveTo (target : Phase) : Act Session Unit :=
  Lifecycle.transition (ρ := Request) (callState ask) target

/-- Calls a change listener. -/
def callChange (l : Listener Request) : Act Session Unit := do
  let s ← get
  tell (.change l.name (some (s.phase, s.link.store.size)) s.loop.now)
  l.perform Request.name ask

/-- Fires the change signal. -/
def fire : Act Session Unit := do
  tell (.signal (← get).link.store.reports)
  ChangeSignal.fire (ρ := Request) (callChange ask)

/-- Changes the change signal. -/
def onSignal (f : ChangeSignal Request → ChangeSignal Request) : Act Session Unit :=
  modify (Holds.update f)

/-- Marks a change. -/
def mark : Act Session Unit := do
  let now := (← get).loop.now
  onSignal (ChangeSignal.mark now)

/-- Fires the change signal if its time has come, and answers whether it has. -/
def poll : Act Session Bool := do
  let s ← get
  if s.link.signal.isDue s.loop.now then
    fire ask
    return true
  else return false

/-- Puts a report into the store. -/
def put (report : Report) : Act Session Unit := do
  onLink fun l => { l with store := l.store.put report }
  log .debug s!"Stored {report.diagnostics.length} diagnostics for {report.path.text}"

/-- Tells an event of the connection that is written to; nothing if there is none. -/
def tellOfHeld (event : Nat → Event) : Act Session Unit := do
  match (← get).link.writesTo with
  | some i => tell (event i)
  | none => pure ()

/-- How a write to the connection would fail, if it would. -/
def writeFault? (s : Session) : Option WriteFault :=
  match s.link.writesTo.bind fun i => s.network.connections[i]? with
  | none => some .closed
  | some connection => if connection.closing then some .closed else connection.writeFault

/-- Writes to the connection. -/
def write (bytes : List UInt8) : Act Session Unit := do
  match (← get).writeFault? with
  | some fault =>
    tellOfHeld (.unsent · fault)
    throw (.write fault)
  | none => tellOfHeld (.write · bytes)

/-- Takes leave of the peer, if the connection is up. -/
def takeLeave : Act Session Unit := do
  if (← get).isUp then
    (write (Frame.bare .disconnect)).rescue Fault.isWriteFailure fun e =>
      log .debug s!"Could not send DISCONNECT: {e.message}"

/-- Drops the connection and forgets every report. The peer is told only if `notify`
says so. -/
def disconnect (notify : Bool) : Act Session Unit := do
  match (← get).link.dial with
  | some d =>
    cancelDial d
    onLink fun l => { l with dial := none }
  | none => pure ()
  if notify then takeLeave
  match (← get).link.writesTo with
  | some i => close i
  | none => pure ()
  onLink fun l => { l with writesTo := none, readsFrom := none }
  if (← get).phase ≠ .disconnected then
    moveTo ask .disconnected
    log .info "Disconnected from debug server"
  onSignal ChangeSignal.reset
  let cleared := (← get).link.store.clear
  onLink fun l => { l with store := cleared.2 }
  if cleared.1 then fire ask

/-- Begins to connect. What there is of a connection is dropped first, without
telling the peer. -/
def connect (host : String) (port : Number) : Act Session Unit := do
  if !(← get).loop.running then throw .noLoop
  if (← get).phase ≠ .disconnected then disconnect ask false
  moveTo ask .connecting
  log .debug s!"Connecting to debug server at {host}:{port.text}"
  let d ← startDial host port
  onLink fun l => { l with dial := some d }

/-- The name of a type byte in messages. -/
def codeName (code : Int) : String :=
  match Kind.ofCode? code with
  | some kind => kind.name
  | none => toString code

/-- Sends a frame without a body, and answers whether the transport took it. A failed
write drops the connection without telling the peer. -/
def send (code : Int) : Act Session Bool := do
  if (← get).phase ≠ .connected then return false
  let attempt : Act Session Bool := do
    match Frame.encode code [] with
    | .ok bytes => write bytes
    | .error e => throw (.encode e)
    return true
  attempt.rescue Fault.isWriteFailure fun e => do
    log .info s!"Sending {codeName code} failed, dropping connection: {e.message}"
    disconnect ask false
    return false

/-- Sends a sign of life. -/
def sendAlive : Act Session Bool :=
  send ask Kind.pingAlive.code

/-- Acts on a frame. A report that cannot be read is the peer's error. -/
def handle (frame : Frame) : Act Session (Except WireError Unit) := do
  match frame.kind? with
  | some .pingAlive =>
    let _ ← sendAlive ask
    return .ok ()
  | some .diagnostics =>
    match Report.read frame.body with
    | .error e => return .error e
    | .ok report =>
      put report
      mark
      return .ok ()
  | some .disconnect =>
    log .info "Debug server asked to disconnect"
    disconnect ask false
    return .ok ()
  | _ =>
    log .debug s!"Ignoring unhandled {frame.describe}"
    return .ok ()

/-- Drops a connection on which frames cannot be told apart any more. -/
def giveUp (e : WireError) : Act Session Unit := do
  log .warning s!"Malformed data from debug server, reconnecting: {e.message}"
  disconnect ask true

/-- Handles the frames that are there as a whole, `bound` at most. -/
def drain : (bound : Nat) → Act Session Unit
  | 0 => pure ()
  | bound + 1 => do
    let s ← get
    match s.link.readsFrom, s.receiver? with
    | some i, some receiver =>
      match receiver.inbox.next with
      | (.error e, _) => giveUp ask e
      | (.ok none, _) => pure ()
      | (.ok (some frame), inbox) =>
        onConnection i fun c => { c with receiver := { c.receiver with inbox } }
        onLink fun l => { l with lastTraffic := s.loop.now }
        tell (.handled i frame)
        match ← handle ask frame with
        | .ok () => drain bound
        | .error e => giveUp ask e
    | _, _ => pure ()

/-- Handles every frame that is there as a whole. Each is at least one byte long. -/
def drainAll : Act Session Unit := do
  match (← get).receiver? with
  | some receiver => drain ask (receiver.inbox.size + 1)
  | none => pure ()

/-- Looks after the connection: notices that the peer is gone, sends a sign of life
after a silence, and handles what was received. -/
def tick : Act Session Unit := do
  let s ← get
  if s.phase ≠ .connected then pure ()
  else if !s.isUp then
    tellOfHeld (.looked · .gone)
    match s.receiver?.bind (·.error) with
    | some error => log .info s!"Connection to debug server lost: {error}"
    | none => log .info "Debug server closed the connection"
    disconnect ask false
  else if s.link.settings.keepAliveInterval.below (s.loop.now - s.link.lastTraffic) then
    tellOfHeld (.looked · .silent)
    onLink fun l => { l with lastTraffic := s.loop.now }
    if ← sendAlive ask then drainAll ask
  else
    tellOfHeld (.looked · .calm)
    drainAll ask

/-! ## The link's side of a dial -/

/-- Runs a dial for the first time: it starts its attempt and waits for it, for a
limited time. One cancelled before does nothing, and one whose time cannot be
limited ends without a word, while its attempt goes on. -/
def beginDial (d : Nat) : Act Session Unit := do
  match (← get).dial? d with
  | none => pure ()
  | some dial =>
    if dial.cancelAsked then onDial d fun dial => { dial with stage := .ended }
    else
      onDial d fun dial => { dial with
        stage := .waiting
        attempt := { dial.attempt with stage := .fresh, shielded := true } }
      enqueue (.beginAttempt d)
      (arm (← get).link.settings.connectTimeout (.dialTimeout d)).rescue Fault.isOrdinary
        fun _ => onDial d fun dial => { dial with stage := .ended }

/-- Ends a dial and its timer. -/
def endDial (d : Nat) : Act Session Unit := do
  disarm (.dialTimeout d)
  onDial d fun dial => { dial with stage := .ended }

/-- A dial has got a connection: the link takes it if it is still connecting. -/
def dialOpened (d i : Nat) : Act Session Unit := do
  endDial d
  onLink fun l => { l with dial := none }
  if (← get).phase ≠ .connecting then close i
  else
    let now := (← get).loop.now
    onLink fun l => { l with writesTo := some i, readsFrom := some i, lastTraffic := now }
    moveTo ask .connected
    match (← get).dial? d with
    | some dial => log .info s!"Connected to debug server at {dial.host}:{dial.port.text}"
    | none => pure ()

/-- A dial has failed for a reason of the network. -/
def dialFailed (d : Nat) (reason : String) : Act Session Unit := do
  endDial d
  abandonAttempt d
  match (← get).dial? d with
  | some dial =>
    log .debug s!"Debug server at {dial.host}:{dial.port.text} not reachable: {reason}"
  | none => pure ()
  onLink fun l => { l with dial := none }
  if (← get).phase = .connecting then moveTo ask .disconnected

/-- A dial learns what its attempt came to. After an unexpected failure it ends
without a word. -/
def dialResolved (d : Nat) : Result → Act Session Unit
  | .opened i => dialOpened ask d i
  | .failed false => dialFailed ask d "connect failed"
  | .failed true => endDial d
  | .cancelled => do
    endDial d
    abandonAttempt d

/-- A dial that waits no longer cancels its shield, and waits for that to be done. -/
def settle (d : Nat) (timedOut : Bool) : Act Session Unit := do
  onDial d fun dial => { dial with
    stage := .settling timedOut
    wake := .waiting
    cancelAsked := false
    shield := .cancelled }
  enqueue (.shieldDone d)
  enqueue (.settleDial d)

/-- Runs a dial that has waited. One that was cancelled when its shield was done
already goes on with what the shield holds. -/
def resumeDial (d : Nat) : Act Session Unit := do
  match (← get).dial? d with
  | none => pure ()
  | some dial =>
    let cancelled : Bool := dial.wake = .cancelled ∨ dial.cancelAsked
    match dial.stage with
    | .waiting =>
      match dial.shield with
      | .resolved result => dialResolved ask d result
      | .cancelled => dialResolved ask d .cancelled
      | .waiting => settle d (!cancelled)
    | .settling timedOut =>
      if timedOut ∧ !cancelled then dialFailed ask d ""
      else
        endDial d
        abandonAttempt d
    | _ => pure ()

end Session
end DiagnosticWatch
