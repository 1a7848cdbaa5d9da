/-
# Received bytes

An inbox holds the bytes received from the debug server that are not yet part
of a frame taken out. Bytes arrive in chunks of any size; frames come out
whole, in order. An unacceptable length prefix stays in front for good: after
it the frames cannot be told apart any more.

Key definitions: `Inbox`, `Inbox.feed`, `Inbox.next`, `Inbox.hasFrame`.
-/
import DiagnosticWatch.Wire.Frame

namespace DiagnosticWatch

/-- Bytes received and not yet taken out. -/
structure Inbox where
  bytes : List UInt8
deriving Repr, DecidableEq

namespace Inbox

/-- An inbox that has received nothing. -/
def empty : Inbox := ⟨[]⟩

/-- The number of bytes held. -/
def size (inbox : Inbox) : Nat :=
  inbox.bytes.length

/-- Receives a chunk. -/
def feed (inbox : Inbox) (chunk : List UInt8) : Inbox :=
  ⟨inbox.bytes ++ chunk⟩

/-- Takes the next frame out, if it is there as a whole. An error takes nothing
out. -/
def next (inbox : Inbox) : Except WireError (Option Frame) × Inbox :=
  match Frame.next? inbox.bytes with
  | .ok (some (frame, rest)) => (.ok (some frame), ⟨rest⟩)
  | .ok none => (.ok none, inbox)
  | .error e => (.error e, inbox)

/-- Whether the next frame is there as a whole. A prefix that no frame has begins none. -/
def hasFrame (inbox : Inbox) : Bool :=
  if inbox.size < 4 then false
  else match Frame.decodeLength (inbox.bytes.take 4) with
    | .ok length => 4 + length ≤ inbox.size
    | .error _ => false

end Inbox
end DiagnosticWatch
