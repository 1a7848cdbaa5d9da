/-
# What received bytes come to

A digest is what the frames received on a connection have come to: the phase,
the reports, the mark, and what was signalled and written on the way. It is a
left fold of `Digest.dispatch` over frames, which ends with the first one that
drops the connection, and bytes that begin no frame drop it behind the frames
before them. A digest of all bytes is the same as one of the first of them,
followed by one of what these leave and the others (`Digest.absorb_feed`).

Key definitions: `Digest`, `Digest.dispatch`, `Digest.absorb`, `Digest.advance`.
Key theorems: `Digest.absorb_feed`, `Digest.foldl_advance`.
-/
import DiagnosticWatch.Phase
import DiagnosticWatch.Proofs.Wire.Streaming
import DiagnosticWatch.Report.Payload
import DiagnosticWatch.Store

namespace DiagnosticWatch

/-- What the frames received on a connection have come to. -/
structure Digest where
  phase : Phase
  store : Store
  /-- Whether a change is marked. -/
  dirty : Bool
  /-- What was stored at each change signal. -/
  signals : List (List Report)
  /-- The kinds of the frames written. -/
  written : List Kind
deriving Repr, DecidableEq

/-- What happens while bytes are received: a chunk of them arrives, or it is time to look
at what is there. -/
inductive Arrival where
  | chunk (bytes : List UInt8)
  | tick (now : Float)

/-- The bytes that arrive. -/
def Arrival.bytes : Arrival → List UInt8
  | .chunk bytes => bytes
  | .tick _ => []

namespace Digest

/-- A connection on which nothing has been received. -/
def begin (store : Store) (dirty : Bool) : Digest :=
  ⟨.connected, store, dirty, [], []⟩

/-- The connection is dropped: the reports are forgotten, and that is signalled if there
were any. -/
def drop (d : Digest) : Digest where
  phase := .disconnected
  store := .empty
  dirty := false
  signals := d.signals ++ if d.store.isEmpty then [] else [[]]
  written := d.written

/-- The connection is dropped after a word to the peer. -/
def giveUp (d : Digest) : Digest :=
  drop { d with written := d.written ++ [.disconnect] }

/-- What a frame comes to; nothing, once the connection is dropped. -/
def dispatch (d : Digest) (f : Frame) : Digest :=
  if d.phase ≠ .connected then d
  else match f.kind? with
    | some .pingAlive => { d with written := d.written ++ [.pingAlive] }
    | some .diagnostics =>
      match Report.read f.body with
      | .ok report => { d with store := d.store.put report, dirty := true }
      | .error _ => d.giveUp
    | some .disconnect => d.drop
    | _ => d

/-- What all frames of received bytes come to, and what is wrong with the bytes behind
them. -/
def absorb (d : Digest) (p : Inbox.Drained) : Digest :=
  let d := p.frames.foldl dispatch d
  if d.phase = .connected ∧ p.error.isSome then d.giveUp else d

/-- What has been digested and what has not, after one more arrival. -/
def advance : Digest × Inbox → Arrival → Digest × Inbox
  | (d, inbox), .chunk bytes => (d, inbox.feed bytes)
  | (d, inbox), .tick _ => (d.absorb inbox.drain, inbox.drain.rest)

variable {d : Digest} {p : Inbox.Drained}

theorem giveUp_dropped (d : Digest) : d.giveUp.phase ≠ .connected := nofun

/-- A frame of another kind comes to nothing. -/
theorem dispatch_of_other {f : Frame} (hp : f.kind? ≠ some .pingAlive)
    (hr : f.kind? ≠ some .diagnostics) (hd : f.kind? ≠ some .disconnect) : d.dispatch f = d := by
  unfold dispatch
  split
  · rfl
  · split <;> first | rfl | contradiction

theorem dispatch_of_dropped (h : d.phase ≠ .connected) (f : Frame) : d.dispatch f = d := by
  simp only [dispatch, if_pos h]

theorem foldl_dispatch_of_dropped (h : d.phase ≠ .connected) (frames : List Frame) :
    frames.foldl dispatch d = d := by
  induction frames with
  | nil => rfl
  | cons f frames ih => rw [List.foldl_cons, dispatch_of_dropped h, ih]

/-- Nothing counts that comes after the connection was dropped. -/
theorem absorb_of_dropped (h : d.phase ≠ .connected) (p : Inbox.Drained) : d.absorb p = d := by
  simp only [absorb, foldl_dispatch_of_dropped h]
  rw [if_neg fun hp => h hp.1]

theorem absorb_after (frames : List Frame) (p : Inbox.Drained) :
    d.absorb (p.after frames) = (frames.foldl dispatch d).absorb p := by
  simp only [absorb, Inbox.Drained.after, List.foldl_append]

theorem absorb_of_fine (h : p.error = none) : d.absorb p = p.frames.foldl dispatch d := by
  simp [absorb, h]

/-- To digest the first bytes, and then what they leave with the others, is to digest
all. -/
theorem absorb_feed (d : Digest) (inbox : Inbox) (chunk : List UInt8) :
    (d.absorb inbox.drain).absorb (inbox.drain.rest.feed chunk).drain =
      d.absorb (inbox.feed chunk).drain := by
  rw [Inbox.drain_feed inbox, absorb_after]
  cases he : inbox.drain.error with
  | none => rw [absorb_of_fine he]
  | some e =>
    -- What begins no frame stays in front, so that it drops the connection either way.
    have hrest := Inbox.next_feed_of_error (Inbox.next_of_drain_error he) chunk
    rw [Inbox.drain_of_error hrest]
    by_cases hp : (inbox.drain.frames.foldl dispatch d).phase = .connected
    · simp [absorb, he, hp, giveUp_dropped]
    · simp [absorb, he, hp]

/-- However the bytes arrive, and whenever they are looked at in between, they come to
what they come to at once. The induction is on the arrivals, for any digest and inbox to
begin with. -/
theorem foldl_advance (d : Digest) (inbox : Inbox) (arrivals : List Arrival) (now : Float) :
    ((arrivals ++ [Arrival.tick now]).foldl advance (d, inbox)).1 =
      d.absorb (inbox.feed (arrivals.flatMap Arrival.bytes)).drain := by
  induction arrivals generalizing d inbox with
  | nil => simp [advance, Inbox.feed]
  | cons a arrivals ih =>
    rw [List.cons_append, List.foldl_cons, List.flatMap_cons]
    cases a with
    | chunk bytes =>
      rw [advance, ih]
      simp [Arrival.bytes, Inbox.feed]
    | tick now => rw [advance, ih, absorb_feed, Arrival.bytes, List.nil_append]

/-! ### Signs of life -/

/-- Before the connection is dropped only signs of life are written. -/
def Alive (d : Digest) : Prop :=
  d.phase = .connected → ∀ kind ∈ d.written, kind = .pingAlive

theorem Alive.dispatch (h : d.Alive) (f : Frame) : (d.dispatch f).Alive := by
  unfold Digest.dispatch
  split
  · exact h
  · rename_i hp
    have hd := h (Decidable.not_not.mp hp)
    split
    · intro _ kind hk
      rcases List.mem_append.mp hk with hk | hk
      · exact hd kind hk
      · exact List.mem_singleton.mp hk
    · split
      · exact h
      · exact nofun
    · exact nofun
    · exact h

theorem Alive.absorb (h : d.Alive) (p : Inbox.Drained) : (d.absorb p).Alive := by
  have hall : (p.frames.foldl Digest.dispatch d).Alive := by
    generalize p.frames = frames
    induction frames generalizing d with
    | nil => exact h
    | cons f frames ih => exact ih (h.dispatch f)
  simp only [Digest.absorb]
  split
  · exact nofun
  · exact hall

end Digest
end DiagnosticWatch
