/-
# Running a session

A request is answered at once. A listener's requests are answered in turn, and
those of the listeners that these call, to a bounded depth. What is ready runs
in order, one job after the other, each to its end; when nothing is ready, the
earliest timer goes off.

Key definitions: `Session.perform`, `Session.turn`, `Session.settleAll`,
`Session.elapse`, `Session.step`.
-/
import DiagnosticWatch.Session.Pacer

namespace DiagnosticWatch
namespace Session

/-! ## Requests -/

/-- The number of the connection that a request is about. -/
def chosen (s : Session) (i : Option Nat) : Nat :=
  i.getD (s.network.connections.size - 1)

/-- Changes the receiver of a connection, and tells what comes of it. -/
def onReceiver (i : Option Nat) (f : Receiver → Receiver) (events : List Event) :
    Act Session Unit := do
  let i := (← get).chosen i
  if i < (← get).network.connections.size then
    onConnection i fun c => { c with receiver := f c.receiver }
    events.forM tell

/-- Runs `act` where no loop runs. -/
def unlooped {α : Type} (act : Act Session α) : Act Session α := do
  let running := (← get).loop.running
  onLoop fun l => { l with running := false }
  act.ensuring fun s => { s with loop := { s.loop with running } }

/-- Logs the reports in the order of their paths, each with its diagnostics. -/
def logReports : Act Session Unit := do
  let store := (← get).link.store
  if store.isEmpty then log .info "No diagnostics"
  else store.byPath.forM fun report => do
    log .info report.summary
    report.diagnostics.forM fun d => log .debug s!"  {d.describe}"

/-- Answers a request; `ask` answers the requests that listeners make. -/
def answer (ask : Request → Act Session Answer) : Request → Act Session Answer
  | .data bytes i => do
    onReceiver i (Receiver.receive bytes) []
    return .nothing
  | .endOfInput i => do
    onReceiver i Receiver.endOfInput Receiver.endEvents
    return .flag false
  | .lose error i => do
    onReceiver i (Receiver.lose error) (Receiver.loseEvents error)
    return .nothing
  | .setWrites fault i => do
    onConnection ((← get).chosen i) fun c => { c with writeFault := fault }
    return .nothing
  | .setClosing i => do
    onConnection ((← get).chosen i) fun c => { c with closing := true }
    return .nothing
  | .connect host port => do
    connect ask host port
    return .nothing
  | .connectUnlooped host port => do
    unlooped (connect ask host port)
    return .nothing
  | .disconnect notify => do
    disconnect ask notify
    return .nothing
  | .tick => do
    tick ask
    return .nothing
  | .send code => do
    tellOfHeld (.asked · code)
    return .flag (← send ask code)
  | .get path => return .report ((← MonadState.get).link.store.get? path)
  | .all => return .reports (← MonadState.get).link.store.reports
  | .put path notes => do
    match Note.diagnostics notes with
    | .ok diagnostics => put (.of path diagnostics)
    | .error name => throw (.severity name)
    return .nothing
  | .describe => do
    let s ← MonadState.get
    return .text s!"DebugClient(state={s.phase.name}, files={s.link.store.size})"
  | .logReports => do
    logReports
    return .nothing
  | .mark => do
    mark
    return .nothing
  | .poll => return .flag (← poll ask)
  | .fire => do
    fire ask
    return .nothing
  | .subscribe name script => do
    let known := (← MonadState.get).known
    let l : Listener Request := ⟨known.length, name, script, none⟩
    modify fun s => { s with known := l :: known }
    onSignal fun signal => { signal with listeners := signal.listeners ++ [l] }
    return .nothing
  | .unsubscribe name => do
    match Listener.latest? (← MonadState.get).known name with
    | some l =>
      onSignal fun signal => { signal with listeners := Listener.remove l.serial signal.listeners }
    | none => pure ()
    return .nothing
  | .onState name script only => do
    onLink fun link =>
      let listeners := link.life.listeners
      { link with life := { link.life with
          listeners := listeners ++ [⟨listeners.length, name, script, only⟩] } }
    return .nothing
  | .paceTick => return .flag (← paceTick ask)
  | .paceTickUnlooped => return .flag (← unlooped (paceTick ask))
  | .interval => return .number (← MonadState.get).interval
  | .attempts => return .number (.int (← MonadState.get).pacer.attempts)
  | .start => do
    startTicker
    return .nothing
  | .running => return .flag (← MonadState.get).isRunning
  | .cancelTicker => return .flag (← cancelTicker)

/-- Answers a request whose listeners nest requests less than `depth` deep. -/
def perform : (depth : Nat) → Request → Act Session Answer
  | 0, _ => throw .tooDeep
  | depth + 1, request => answer (perform depth) request

/-! ## Turns of the loop -/

variable (ask : Request → Act Session Answer)

/-- Runs a job. -/
def runJob : Job → Act Session Unit
  | .beginDial d => beginDial d
  | .resumeDial d => resumeDial ask d
  | .beginAttempt d => beginAttempt d
  | .resumeAttempt d => resumeAttempt d
  | .race script =>
    (Script.run Request.name ask script).rescue Fault.isOrdinary fun _ => pure ()
  | .attemptEnded d => attemptEnded d
  | .shieldDone d => shieldDone d
  | .releaseDial d => releaseDial d
  | .settleDial d => settleDial d
  | .closeOpened d => closeOpened d
  | .ticker => runTicker ask

/-- Runs the first job that is ready, and answers whether there was one. -/
def turn : Act Session Bool := do
  match (← get).loop.ready with
  | [] => return false
  | job :: ready =>
    onLoop fun l => { l with ready }
    runJob ask job
    return true

/-- Runs what is ready until nothing is, at most `bound` jobs. -/
def settleAll : (bound : Nat) → Act Session Unit
  | 0 => pure ()
  | bound + 1 => do
    if ← turn ask then settleAll bound

/-- The timer that is due first, and of several the one armed first. -/
def earliest? : List Timer → Option Timer
  | [] => none
  | timer :: timers =>
    match earliest? timers with
    | some other => if other.due < timer.due then some other else some timer
    | none => some timer

/-- What a timer does when it goes off. -/
def goOff : Alarm → Act Session Unit
  | .dialTimeout d => releaseDial d
  | .attempt d => wakeAttempt d
  | .ticker => enqueue .ticker

/-- Lets the timers due until `target` go off one after the other, each followed by
what it makes ready; at most `bound` timers. -/
def elapse (jobs : Nat) (target : Float) : (bound : Nat) → Act Session Unit
  | 0 => pure ()
  | bound + 1 => do
    match earliest? (← get).loop.timers with
    | some timer =>
      if timer.due ≤ target then
        disarm timer.alarm
        onLoop fun l => { l with now := timer.due }
        goOff timer.alarm
        settleAll ask jobs
        elapse jobs target bound
    | none => pure ()

/-- Lets time pass: first runs what is ready, then the timers due within `seconds`. -/
def pass (bound : Nat) (seconds : Number) : Act Session Unit := do
  let target := (← get).loop.now + (← inSeconds seconds)
  settleAll ask bound
  elapse ask bound target bound
  onLoop fun l => { l with now := target }

/-! ## Steps -/

/-- What is done with a session from outside. -/
inductive Step where
  | ask (request : Request)
  | pass (seconds : Number)
  | stop

/-- Takes a step; `bound` bounds the jobs between two timers, and the timers. -/
def takeStep (bound : Nat) : Step → Act Session Answer
  | .ask request => ask request
  | .pass seconds => do
    pass ask bound seconds
    return .nothing
  | .stop => do
    pass ask bound (.int 0)
    stop ask
    pass ask bound (.int 0)
    return .nothing

/-- How deep listeners may nest requests. -/
def maxDepth : Nat := 1000

/-- How many jobs may run between two timers, and how many timers may go off in one
step. -/
def maxJobs : Nat := 1000000000

/-- Takes a step, and answers it. -/
def step (s : Session) (step : Step) : Answer × Session :=
  match (takeStep (perform maxDepth) maxJobs step) s with
  | .ok answer s => (answer, s)
  | .error e s => (.fault e, s)

end Session
end DiagnosticWatch
