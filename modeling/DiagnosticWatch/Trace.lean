/-
# Traces

A trace tells, in order, what happened in a world: what was logged, which
listeners ran, what the network was asked for and what it did. Some events
are told for the theory only: a step between phases and one that is refused, the
start of a change signal with what is stored then, the stages of a tick of the
pacer and the wait that the ticker begins, and on a connection what it is asked to
send, what a tick finds, the frames that are handled and the writes that fail. A
signal on its own tells its marks, resets, polls and the ends of its deliveries, a
lifecycle on its own when a listener is called, when it has returned and when all
have been told of a step; both tell which listeners come and go.

Key definitions: `Finding`, `Event`, `Answer`, `Trace`, `Trace.record`,
`Trace.events`.
-/
import DiagnosticWatch.Fault
import DiagnosticWatch.Json.Value
import DiagnosticWatch.Report.Basic
import DiagnosticWatch.Wire.Frame

namespace DiagnosticWatch

/-- How important a log record is. -/
inductive Level where
  | debug
  | info
  | warning
  | error
deriving Repr, DecidableEq

/-- The name of a level. -/
def Level.name : Level → String
  | .debug => "DEBUG"
  | .info => "INFO"
  | .warning => "WARNING"
  | .error => "ERROR"

/-- What a request is answered with. -/
inductive Answer where
  | nothing
  | flag (b : Bool)
  | number (n : Number)
  | text (s : String)
  | report (r : Option Report)
  | reports (rs : List Report)
  /-- The request ended with a fault. -/
  | fault (e : Fault)
deriving Inhabited

/-- What a tick finds when it looks at the connection. -/
inductive Finding where
  /-- The peer is gone. -/
  | gone
  /-- Nothing was handled or sent for too long. -/
  | silent
  | calm
deriving Repr, DecidableEq

/-- Something that happened. -/
inductive Event where
  /-- A record was logged. -/
  | log (level : Level) (text : String)
  /-- The state listener `name` ran. -/
  | state (name : String) (old new : Phase)
  /-- The change listener `name` ran; in a session, it saw the phase and the number
  of stored reports. -/
  | change (name : String) (seen : Option (Phase × Nat)) (time : Float)
  /-- A listener made a request. -/
  | nested (request : String) (answer : Answer)
  /-- Bytes were written to a connection. -/
  | write (connection : Nat) (bytes : List UInt8)
  /-- A connection was closed from this side. -/
  | close (connection : Nat)
  /-- A connection was told not to hold small writes back. -/
  | noDelay
  /-- A connection attempt began. -/
  | attempt (host : String) (port : Number) (time : Float)
  /-- A connection attempt opened a connection. -/
  | opened (connection : Nat)
  /-- The backend probe was asked, and answered unless it failed. The one that is there by
  default is asked too. -/
  | probe (value : Option Json) (time : Float)
  /-- The connection went from one phase to another. -/
  | moved (old new : Phase)
  /-- A change signal began while this was stored. -/
  | signal (stored : List Report)
  /-- The pacer began a tick. -/
  | pacing
  /-- The link was ticked by the pacer, and is in this phase. -/
  | upkept (phase : Phase)
  /-- The pacer makes the link connect. -/
  | retry (host : String) (port : Number)
  /-- The ticker began to wait. -/
  | wait (seconds : Number) (time : Float)
  /-- Somebody asked to send a frame on a connection. -/
  | asked (connection : Nat) (code : Int)
  /-- A tick looked at a connection. -/
  | looked (connection : Nat) (finding : Finding)
  /-- A frame received on a connection came to be handled. -/
  | handled (connection : Nat) (frame : Frame)
  /-- Bytes could not be written to a connection. -/
  | unsent (connection : Nat) (fault : WriteFault)
  /-- A change was marked, whether or not one was marked already. -/
  | marked (time : Float)
  /-- A marked change was to be forgotten. -/
  | unmarked
  /-- A signal was polled, and fires if so. -/
  | polled (time : Float) (fires : Bool)
  /-- A signal has been delivered, and another change is marked if so. -/
  | delivered (pending : Bool)
  /-- The state listener of this serial number is called. -/
  | called (serial : Nat) (old new : Phase)
  /-- The state listener of this serial number has returned, or failed. -/
  | returned (serial : Nat)
  /-- The state listeners have been told of a step. -/
  | announced
  /-- A step that the phases lack was asked for. -/
  | refused (old new : Phase)
  /-- A listener of this serial number was registered, behind the others. -/
  | registered (serial : Nat)
  /-- The first registration of a listener was removed, if it had one. -/
  | removed (serial : Nat)
  /-- The change listener of this serial number is called. -/
  | invoked (serial : Nat)
deriving Inhabited

/-- What happened, the latest first. -/
structure Trace where
  latestFirst : List Event

namespace Trace

/-- The trace in which nothing has happened. -/
def empty : Trace := ⟨[]⟩

/-- Adds what happened next. -/
def record (e : Event) (t : Trace) : Trace :=
  ⟨e :: t.latestFirst⟩

/-- The number of events. -/
def size (t : Trace) : Nat :=
  t.latestFirst.length

/-- What happened, in order. -/
def events (t : Trace) : List Event :=
  t.latestFirst.reverse

/-- What happened after the first `n` events, in order. -/
def since (t : Trace) (n : Nat) : List Event :=
  (t.latestFirst.take (t.size - n)).reverse

end Trace
end DiagnosticWatch
