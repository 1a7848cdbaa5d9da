/-
# What is said on a connection

What the link does on a connection comes in phrases: it looks at the
connection, or handles a frame, or writes, and each write has a cue. After a
phrase the connection is there as before. Some last words may precede the end
of a connection: what made the link leave it, or its word of farewell.

Key definitions: `Cue`, `Trouble`, `Phrase`, `LastWords`.
-/
import DiagnosticWatch.Report.Payload
import DiagnosticWatch.Session.Basic

namespace DiagnosticWatch

/-- What the link writes bytes upon: someone asked for it, nothing happened for too long,
or the peer asked for a sign of life. -/
inductive Cue (A : Request → Prop) (i : Nat) : List UInt8 → List Event → Prop
  | request {code : Int} {bytes : List UInt8} (asked : A (.send code))
      (encodes : Frame.encode code [] = .ok bytes) : Cue A i bytes [.asked i code]
  | silence : Cue A i (Frame.bare .pingAlive) [.looked i .silent]
  | ping {f : Frame} (kind : f.kind? = some .pingAlive) :
      Cue A i (Frame.bare .pingAlive) [.handled i f]

/-- What may precede a word of farewell: a frame that cannot be read, or nothing. -/
inductive Trouble (i : Nat) : List Event → Prop
  | none : Trouble i []
  | unreadable {f : Frame} {e : WireError} (kind : f.kind? = some .diagnostics)
      (fails : Report.read f.body = .error e) : Trouble i [.handled i f]

/-- What is said on a connection that is kept. -/
inductive Phrase (A : Request → Prop) (i : Nat) : List Event → Prop
  | calm : Phrase A i [.looked i .calm]
  /-- A report is stored, and any other frame is ignored. -/
  | heard {f : Frame} (ping : f.kind? ≠ some .pingAlive) (leave : f.kind? ≠ some .disconnect)
      (readable : f.kind? = some .diagnostics → ∃ report, Report.read f.body = .ok report) :
      Phrase A i [.handled i f]
  /-- What somebody asks to send is no frame. -/
  | senseless {code : Int} {e : EncodeError} (fails : Frame.encode code [] = .error e) :
      Phrase A i [.asked i code]
  | wrote {bytes : List UInt8} {cue : List Event} (h : Cue A i bytes cue) :
      Phrase A i (cue ++ [.write i bytes])
  /-- The transport refuses the bytes, which is not held against the connection. -/
  | refused {bytes : List UInt8} {cue : List Event} (h : Cue A i bytes cue) :
      Phrase A i (cue ++ [.unsent i .refused])
  /-- The same happens to a word of farewell, and the link does not get to leave. -/
  | unable {trouble : List Event} (h : Trouble i trouble) :
      Phrase A i (trouble ++ [.unsent i .refused])

/-- What is said before a connection is left. -/
inductive LastWords (A : Request → Prop) (i : Nat) : List Event → Prop
  /-- A write fails. -/
  | failed {bytes : List UInt8} {cue : List Event} {fault : WriteFault} (h : Cue A i bytes cue)
      (dying : fault ≠ .refused) : LastWords A i (cue ++ [.unsent i fault])
  /-- The stream has failed or was closed. -/
  | gone : LastWords A i [.looked i .gone]
  /-- The peer asks to disconnect. -/
  | asked {f : Frame} (kind : f.kind? = some .disconnect) : LastWords A i [.handled i f]
  | silent {trouble : List Event} (h : Trouble i trouble) : LastWords A i trouble
  | farewell {trouble : List Event} (h : Trouble i trouble) :
      LastWords A i (trouble ++ [.write i (Frame.bare .disconnect)])
  /-- The word of farewell fails. -/
  | unheard {trouble : List Event} {fault : WriteFault} (h : Trouble i trouble)
      (dying : fault ≠ .refused) : LastWords A i (trouble ++ [.unsent i fault])

end DiagnosticWatch
