/-
# The receiving end of a connection

A receiver collects what the peer sends; nothing is decoded here. It also keeps
how the peer left: a connection that failed with an error is gone at once,
while after a clean close the peer counts as alive as long as whole frames are
left to read, since a partial one can no longer be completed.

Key definitions: `Receiver`, `Receiver.attach`, `Receiver.receive`,
`Receiver.endOfInput`, `Receiver.lose`, `Receiver.isAlive`.
-/
import DiagnosticWatch.Trace
import DiagnosticWatch.Wire.Inbox

namespace DiagnosticWatch

/-- What a new connection has to set options on. -/
inductive Socket where
  /-- There is none. -/
  | none
  /-- Options can be set. -/
  | willing
  /-- Options cannot be set. -/
  | unwilling
deriving Repr, DecidableEq

/-- The receiving end of a connection. -/
structure Receiver where
  inbox : Inbox
  /-- Whether it is attached to a transport. -/
  attached : Bool
  /-- Whether nothing more will be received. -/
  peerClosed : Bool
  /-- What the connection failed with. -/
  error : Option String
deriving Repr, DecidableEq

namespace Receiver

/-- A receiver without a transport. -/
def detached : Receiver := ⟨.empty, false, false, none⟩

/-- Attaches a transport. -/
def attach (s : Receiver) : Receiver :=
  { s with attached := true }

/-- What is told when a transport with this socket is attached: small writes are
not to be held back. -/
def attachEvents : Socket → List Event
  | .none => []
  | .willing => [.noDelay]
  | .unwilling => [.log .debug "Could not disable Nagle: setsockopt failed"]

/-- Receives bytes. -/
def receive (bytes : List UInt8) (s : Receiver) : Receiver :=
  { s with inbox := s.inbox.feed bytes }

/-- The peer has sent all it will send. -/
def endOfInput (s : Receiver) : Receiver :=
  { s with peerClosed := true }

/-- What is told when the peer has sent all. -/
def endEvents : List Event :=
  [.log .debug "Debug server closed its side of the connection"]

/-- The connection is gone, cleanly or with an error. -/
def lose (error : Option String) (s : Receiver) : Receiver :=
  { s with attached := false, peerClosed := true, error := error.or s.error }

/-- What is told when the connection is gone. -/
def loseEvents : Option String → List Event
  | some error => [.log .debug s!"Connection lost: {error}"]
  | none => []

/-- Whether the peer is there, or has left whole frames to read. -/
def isAlive (s : Receiver) : Bool :=
  s.error.isNone && (!s.peerClosed || s.inbox.hasFrame)

end Receiver
end DiagnosticWatch
