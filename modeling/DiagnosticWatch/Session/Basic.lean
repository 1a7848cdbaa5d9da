/-
# Sessions

A session is everything that takes part in watching a debug server: the link
that owns the connection and what was read from it, the pacer that ticks the
link, the loop that runs what is ready and keeps the timers, and the network
with its connections and connect attempts. What the network will do is laid
down in advance, one outcome for each attempt.

A dial is the task of the link that makes one connection. It starts an attempt
and waits for it behind a shield, so that the dial can be cancelled, or can
run out of time, while the attempt is still on its way.

Key definitions: `Request`, `Outcome`, `Dial`, `Link`, `Pacer`, `Loop`,
`Network`, `Session`.
-/
import DiagnosticWatch.ChangeSignal
import DiagnosticWatch.Lifecycle
import DiagnosticWatch.Settings.Basic
import DiagnosticWatch.Store
import DiagnosticWatch.Receiver

namespace DiagnosticWatch

/-- What can be asked of a session without giving the loop a turn. A connection
that is not named is the latest. -/
inductive Request where
  /-- The peer sends bytes. -/
  | data (bytes : List UInt8) (connection : Option Nat)
  /-- The peer has sent all. -/
  | endOfInput (connection : Option Nat)
  /-- The connection is lost, with an error or cleanly. -/
  | lose (error : Option String) (connection : Option Nat)
  /-- Writes fail from now on, or succeed again. -/
  | setWrites (fault : Option WriteFault) (connection : Option Nat)
  /-- The transport begins to close. -/
  | setClosing (connection : Option Nat)
  | connect (host : String) (port : Number)
  /-- The same where no loop runs. -/
  | connectUnlooped (host : String) (port : Number)
  | disconnect (notify : Bool)
  | tick
  /-- Sends a frame without a body. -/
  | send (code : Int)
  /-- The latest report on a path. -/
  | get (path : String)
  /-- All reports. -/
  | all
  /-- Puts a report into the store. -/
  | put (path : String) (notes : List Note)
  | describe
  /-- Logs what is stored. -/
  | logReports
  | mark
  | poll
  | fire
  /-- Registers a change listener. -/
  | subscribe (name : String) (script : Trace → List (Reaction Request))
  | unsubscribe (name : String)
  /-- Registers a state listener. The link has no way to remove one. -/
  | onState (name : String) (script : Trace → List (Reaction Request)) (only : Option Phase)
  | paceTick
  /-- The same where no loop runs. -/
  | paceTickUnlooped
  | interval
  | attempts
  /-- Starts the ticker. -/
  | start
  | running
  | cancelTicker

instance : Inhabited Request := ⟨.tick⟩

/-- What a connect attempt comes to. -/
inductive Ending where
  | opens
  /-- It fails, with an error of the network or with an unexpected one. -/
  | fails (unexpected : Bool)
  | hangs
deriving Repr, DecidableEq

/-- What an attempt does when it is told that it is cancelled. -/
inductive Defiance where
  /-- It ends. -/
  | yields
  /-- It goes on, and comes to this after so many seconds more. -/
  | goesOn (ending : Ending) (delay : Number)

/-- An attempt that opens a connection at once when it is cancelled, or ends. -/
instance : Coe Bool Defiance :=
  ⟨fun opens => if opens then .goesOn .opens (.int 0) else .yields⟩

/-- What the network does on one connect attempt. -/
structure Outcome where
  ending : Ending
  /-- The seconds until the attempt ends. -/
  delay : Number
  socket : Socket
  /-- What the peer sends at once. -/
  data : List UInt8
  /-- What the attempt does if it is cancelled. -/
  stubborn : Defiance
  /-- What is asked for when the attempt has ended and its dial has not learned of
  it yet. -/
  race : List (Reaction Request)

/-- The attempt that fails at once. -/
def Outcome.refusal : Outcome := ⟨.fails false, .int 0, .none, [], .yields, []⟩

/-- What the network does on an attempt that goes on although it was cancelled. -/
def Outcome.defying (ending : Ending) (delay : Number) (outcome : Outcome) : Outcome :=
  { outcome with ending, delay, race := [] }

/-- A connection that an attempt has opened. -/
structure Connection where
  receiver : Receiver
  /-- Whether the transport is closing. -/
  closing : Bool
  /-- How writes fail, if they do. -/
  writeFault : Option WriteFault
deriving Repr, DecidableEq

/-- What a task that waits has been woken by. -/
inductive Wake where
  | waiting
  | released
  | cancelled
deriving Repr, DecidableEq

/-- What an attempt has come to. -/
inductive Result where
  | opened (connection : Nat)
  | failed (unexpected : Bool)
  | cancelled
deriving Repr, DecidableEq

/-- How far an attempt is. -/
inductive AttemptStage where
  /-- Its dial has not started it. -/
  | absent
  /-- It has been started and has not run. -/
  | fresh
  /-- It waits for the network. -/
  | waiting
  | ended (result : Result)
deriving Repr, DecidableEq

/-- A connect attempt. -/
structure Attempt where
  stage : AttemptStage
  wake : Wake
  /-- Whether it is to be cancelled when it runs next. -/
  cancelAsked : Bool
  /-- Whether the shield waits for it. -/
  shielded : Bool
  /-- Whether its dial has given it up: what it opens is closed. -/
  abandoned : Bool
  /-- What the network does on it, once it has run. -/
  outcome : Outcome

/-- The shield between a dial and its attempt. -/
inductive Shield where
  | waiting
  | resolved (result : Result)
  | cancelled
deriving Repr, DecidableEq

/-- How far a dial is. -/
inductive DialStage where
  /-- It has not run. -/
  | fresh
  /-- It waits for the shield, with a timer. -/
  | waiting
  /-- It has cancelled the shield and waits for that to be done. -/
  | settling (timedOut : Bool)
  | ended
deriving Repr, DecidableEq

/-- The task that makes a connection. -/
structure Dial where
  host : String
  port : Number
  stage : DialStage
  wake : Wake
  /-- Whether it is to be cancelled when it runs next. -/
  cancelAsked : Bool
  shield : Shield
  attempt : Attempt

/-- A dial that has not run. -/
def Dial.fresh (host : String) (port : Number) : Dial :=
  ⟨host, port, .fresh, .waiting, false, .waiting,
    ⟨.absent, .waiting, false, false, false, .refusal⟩⟩

/-- What is ready to run. Dials are named by their number. -/
inductive Job where
  | beginDial (dial : Nat)
  | resumeDial (dial : Nat)
  | beginAttempt (dial : Nat)
  | resumeAttempt (dial : Nat)
  /-- What happens between the end of the attempt and the dial's learning of it. -/
  | race (script : List (Reaction Request))
  /-- The shield learns that the attempt has ended. -/
  | attemptEnded (dial : Nat)
  /-- The shield is done, and lets go of the attempt. -/
  | shieldDone (dial : Nat)
  /-- The dial is woken because the shield is done. -/
  | releaseDial (dial : Nat)
  /-- The dial is woken because the shield it cancelled is done. -/
  | settleDial (dial : Nat)
  /-- What a given-up attempt has opened is closed. -/
  | closeOpened (dial : Nat)
  /-- The ticker runs. -/
  | ticker

/-- What a timer is for. -/
inductive Alarm where
  /-- A dial has run out of time. -/
  | dialTimeout (dial : Nat)
  /-- The network gets to an attempt. -/
  | attempt (dial : Nat)
  | ticker
deriving Repr, DecidableEq

/-- A timer that is armed. -/
structure Timer where
  due : Float
  alarm : Alarm

/-- The loop: what is ready, in order, and the armed timers. -/
structure Loop where
  now : Float
  /-- Whether whoever asks runs inside the loop. -/
  running : Bool
  ready : List Job
  timers : List Timer

/-- The network: what it will do, and what it has done. -/
structure Network where
  outcomes : List Outcome
  connections : Array Connection
  dials : Array Dial
  /-- How many attempts were told that they are cancelled. -/
  cancelled : Nat

/-- The link to the debug server. -/
structure Link where
  settings : Settings
  life : Lifecycle Request
  signal : ChangeSignal Request
  store : Store
  /-- The connection that is written to. -/
  writesTo : Option Nat
  /-- The connection that is read from. -/
  readsFrom : Option Nat
  /-- The dial under way. -/
  dial : Option Nat
  /-- When a frame was last handled or a sign of life sent. -/
  lastTraffic : Float

/-- The task that ticks in the background. -/
inductive Ticker where
  | absent
  /-- Started, and has not run. -/
  | fresh
  /-- Ticks, and has not begun to wait. -/
  | ticking
  /-- Waits for its next tick. -/
  | waiting
  /-- Is to end when it runs next, or when it would begin to wait. -/
  | cancelling
  | ended
  /-- Ended because its interval is too large for a timer. -/
  | failed
deriving Repr, DecidableEq

/-- The pacer: when to tick the link and when to connect. -/
structure Pacer where
  settings : Settings
  /-- What a probe for the server will answer, failing where there is no answer; no
  probe means that the server is always taken to be there. -/
  probe : Option (List (Option Json))
  /-- Whether a tick is under way. -/
  busy : Bool
  stopped : Bool
  lastAttempt : Option Float
  attempts : Nat
  ticker : Ticker

/-- Everything that takes part in watching a debug server. -/
structure Session where
  link : Link
  pacer : Pacer
  loop : Loop
  network : Network
  /-- Every change listener made, the latest first. -/
  known : List (Listener Request)
  trace : Trace

instance : Holds Trace Session where
  part := Session.trace
  update f s := { s with trace := f s.trace }
  part_update _ _ := rfl

instance : Holds (Lifecycle Request) Session where
  part s := s.link.life
  update f s := { s with link := { s.link with life := f s.link.life } }
  part_update _ _ := rfl

instance : Holds (ChangeSignal Request) Session where
  part s := s.link.signal
  update f s := { s with link := { s.link with signal := f s.link.signal } }
  part_update _ _ := rfl

namespace Session

/-- The time at which every session begins. -/
def epoch : Float := 1000

/-- A session in which nothing has happened. -/
def start (link pacer : Settings) (store : Store) (outcomes : List Outcome)
    (probe : Option (List (Option Json))) : Session where
  link := ⟨link, ⟨.disconnected, []⟩, .quiet link.debounce, store, none, none, none, epoch⟩
  pacer := ⟨pacer, probe, false, false, none, 0, .absent⟩
  loop := ⟨epoch, true, [], []⟩
  network := ⟨outcomes, #[], #[], 0⟩
  known := []
  trace := .empty

/-- The phase of the link. -/
def phase (s : Session) : Phase :=
  s.link.life.phase

/-- The receiver that the link reads from. -/
def receiver? (s : Session) : Option Receiver := do
  let i ← s.link.readsFrom
  let c ← s.network.connections[i]?
  return c.receiver

/-- Whether the link is connected and the peer has not left. -/
def isUp (s : Session) : Bool :=
  s.phase = .connected && match s.receiver? with
    | some receiver => receiver.isAlive
    | none => false

/-- Changes the link. -/
def onLink (f : Link → Link) : Act Session Unit :=
  modify fun s => { s with link := f s.link }

/-- Changes the pacer. -/
def onPacer (f : Pacer → Pacer) : Act Session Unit :=
  modify fun s => { s with pacer := f s.pacer }

/-- Changes the loop. -/
def onLoop (f : Loop → Loop) : Act Session Unit :=
  modify fun s => { s with loop := f s.loop }

/-- Changes the network. -/
def onNetwork (f : Network → Network) : Act Session Unit :=
  modify fun s => { s with network := f s.network }

/-- Changes a connection; nothing if there is none of that number. -/
def onConnection (i : Nat) (f : Connection → Connection) : Act Session Unit :=
  onNetwork fun n => { n with connections := n.connections.modify i f }

/-- Changes a dial; nothing if there is none of that number. -/
def onDial (d : Nat) (f : Dial → Dial) : Act Session Unit :=
  onNetwork fun n => { n with dials := n.dials.modify d f }

/-- Changes the attempt of a dial. -/
def onAttempt (d : Nat) (f : Attempt → Attempt) : Act Session Unit :=
  onDial d fun dial => { dial with attempt := f dial.attempt }

/-- Makes a job ready, after all that are. -/
def enqueue (job : Job) : Act Session Unit :=
  onLoop fun l => { l with ready := l.ready ++ [job] }

/-- Arms a timer. -/
def arm (seconds : Number) (alarm : Alarm) : Act Session Unit := do
  let seconds ← inSeconds seconds
  onLoop fun l => { l with timers := l.timers ++ [⟨l.now + seconds, alarm⟩] }

/-- Disarms the timers for a purpose. -/
def disarm (alarm : Alarm) : Act Session Unit :=
  onLoop fun l => { l with timers := l.timers.filter (·.alarm ≠ alarm) }

/-- Closes a connection from this side. -/
def close (i : Nat) : Act Session Unit := do
  onConnection i fun c => { c with closing := true }
  tell (.close i)

end Session
end DiagnosticWatch
