/-
# A session is a fold of what it receives

A link that is connected and left alone, whose connection takes writes and
whose listeners ask for nothing, digests what it receives: after every chunk
and every tick it is where the digest of the bytes handled so far is
(`Session.Tracks.arrive`). By the law of digests it is in the end where the
bytes are at once, and only the number of signs of life that it sends after a
silence depends on when it was ticked.

Key definitions: `Session.Serving`, `Session.Reflects`, `Session.Tracks`,
`Session.heard`.
Key theorems: `Session.Tracks.drain`, `Session.Tracks.arrive`,
`Session.heard_eq_fold`.
-/
import DiagnosticWatch.Proofs.Session.Digest
import DiagnosticWatch.Proofs.Session.Mute
import DiagnosticWatch.Proofs.Session.Runs

namespace DiagnosticWatch

/-- The transport takes writes, and the peer has not left. -/
structure Connection.IsOpen (c : Connection) : Prop where
  closing : c.closing = false
  writeFault : c.writeFault = none
  peerClosed : c.receiver.peerClosed = false
  error : c.receiver.error = none

namespace Session

open Act

/-- The link is connected through connection `i`, of which these bytes have not been
handled. -/
structure Serving (s : Session) (i : Nat) (inbox : Inbox) : Prop extends s.Mute where
  connected : s.phase = .connected
  writesTo : s.link.writesTo = some i
  readsFrom : s.link.readsFrom = some i
  connection : ∃ c, s.network.connections[i]? = some c ∧ c.IsOpen ∧ c.receiver.inbox = inbox

variable (ask : Request → Act Session Answer) {s t u : Session} {i n : Nat} {inbox rest : Inbox}
  {d : Digest}

theorem Serving.congr (h : s.Serving i inbox) (life : t.link.life = s.link.life)
    (listeners : t.link.signal.listeners = s.link.signal.listeners)
    (writesTo : t.link.writesTo = s.link.writesTo) (readsFrom : t.link.readsFrom = s.link.readsFrom)
    (connections : t.network.connections = s.network.connections) : t.Serving i inbox where
  state := life ▸ h.state
  change := listeners ▸ h.change
  connected := by rw [phase, life, ← phase, h.connected]
  writesTo := writesTo.trans h.writesTo
  readsFrom := readsFrom.trans h.readsFrom
  connection := connections ▸ h.connection

theorem Serving.refilled (h : s.Serving i inbox) (f : Inbox → Inbox) :
    (s.refilled i f).Serving i (f inbox) where
  state := h.state
  change := h.change
  connected := h.connected
  writesTo := h.writesTo
  readsFrom := h.readsFrom
  connection := by
    obtain ⟨c, hc, ho, rfl⟩ := h.connection
    refine ⟨{ c with receiver := { c.receiver with inbox := f c.receiver.inbox } }, ?_, ?_, rfl⟩
    · simp [Session.refilled, Array.getElem?_modify, hc]
    · exact ⟨ho.closing, ho.writeFault, ho.peerClosed, ho.error⟩

theorem Serving.receiver (h : s.Serving i inbox) :
    ∃ r, s.receiver? = some r ∧ r.inbox = inbox ∧ r.isAlive = true := by
  obtain ⟨c, hc, ho, rfl⟩ := h.connection
  refine ⟨c.receiver, ?_, rfl, ?_⟩
  · simp [receiver?, h.readsFrom, hc]
  · simp [Receiver.isAlive, ho.peerClosed, ho.error]

theorem Serving.isUp (h : s.Serving i inbox) : s.isUp = true := by
  obtain ⟨r, hr, -, ha⟩ := h.receiver
  simp [Session.isUp, h.connected, hr, ha]

/-! ### Writing and dropping -/

/-- Bytes have been written to connection `i`. -/
def wrote (i : Nat) (bytes : List UInt8) (s : Session) : Session :=
  { s with trace := s.trace.record (.write i bytes) }

theorem Serving.wrote (h : s.Serving i inbox) (bytes : List UInt8) :
    (s.wrote i bytes).Serving i inbox :=
  h.congr rfl rfl rfl rfl rfl

theorem Serving.willing (h : s.Serving i inbox) : s.writeFault? = none := by
  obtain ⟨c, hc, ho, -⟩ := h.connection
  simp [writeFault?, h.writesTo, hc, ho.closing, ho.writeFault]

theorem Serving.write (h : s.Serving i inbox) (bytes : List UInt8) :
    write bytes s = .ok () (s.wrote i bytes) := by
  rcases write_cases h.writesTo bytes with ⟨-, e⟩ | ⟨fault, hfault, -⟩
  · exact e
  · exact nomatch h.willing.symm.trans hfault

theorem Serving.send (h : s.Serving i inbox) (kind : Kind) :
    send ask kind.code s = .ok true (s.wrote i (Frame.bare kind)) :=
  send_of_willing ask h.connected h.writesTo h.willing (Frame.encode_bare kind)

theorem Serving.takeLeave (h : s.Serving i inbox) :
    takeLeave s = .ok () (s.wrote i (Frame.bare .disconnect)) := by
  unfold Session.takeLeave
  rw [get_bind_apply, if_pos h.isUp]
  simp only [Act.rescue, h.write]

/-- The link drops its connection, after a word to the peer if that is asked for. -/
theorem Serving.disconnect (h : s.Serving i inbox) (notify : Bool) :
    ∃ t, disconnect ask notify s = .ok () t ∧
      Dropped (if notify then s.wrote i (Frame.bare .disconnect) else s) t := by
  obtain ⟨v, hv, hlink, htrace, hconn, -⟩ := callOff_keeps s
  have hvs : v.Serving i inbox :=
    h.congr (by rw [hlink]) (by rw [hlink]) (by rw [hlink]) (by rw [hlink]) hconn
  rw [disconnect_eq, bind_of_ok hv]
  cases notify with
  | false =>
    obtain ⟨t, ht, hd⟩ := leave_of_mute ask hvs.toMute
    refine ⟨t, ht, hd.congr ?_ ?_ ?_⟩
    · simp [Session.signals, htrace]
    · simp [hlink]
    · simp [Session.written, htrace]
  | true =>
    obtain ⟨t, ht, hd⟩ := leave_of_mute ask (hvs.wrote (Frame.bare .disconnect)).toMute
    refine ⟨t, (bind_of_ok hvs.takeLeave).trans ht, hd.congr ?_ ?_ ?_⟩
    · simp [Session.signals, Session.wrote, htrace]
    · simp [Session.wrote, hlink]
    · simp [Session.written, Session.wrote, htrace]

/-! ### Where the digest is -/

/-- From `s` to `t` happened what the digest says, with `n` signs of life sent after a
silence. -/
structure Reflects (s : Session) (i n : Nat) (d : Digest) (t : Session) : Prop where
  phase : t.phase = d.phase
  store : t.link.store = d.store
  dirty : t.link.signal.dirty = d.dirty
  signals : t.signals = s.signals ++ d.signals
  written : t.written = s.written ++
    (List.replicate n Kind.pingAlive ++ d.written).map fun kind => (i, Frame.bare kind)

/-- The session `t` is where the digest is, and has these bytes to handle if it is still
connected. -/
structure Tracks (s : Session) (i n : Nat) (d : Digest) (inbox : Inbox) (t : Session) : Prop
    extends Reflects s i n d t where
  alive : d.Alive
  serving : d.phase = .connected → t.Serving i inbox
  dropped : d.phase ≠ .connected → t.link.readsFrom = none

theorem Reflects.congr (h : Reflects s i n d t) (life : u.link.life = t.link.life)
    (store : u.link.store = t.link.store) (dirty : u.link.signal.dirty = t.link.signal.dirty)
    (signals : u.signals = t.signals) (written : u.written = t.written) : Reflects s i n d u where
  phase := by rw [Session.phase, life, ← Session.phase, h.phase]
  store := store.trans h.store
  dirty := dirty.trans h.dirty
  signals := signals.trans h.signals
  written := written.trans h.written

/-- A frame written is one in the digest. -/
theorem Reflects.wrote (h : Reflects s i n d t) (kind : Kind) :
    Reflects s i n { d with written := d.written ++ [kind] } (t.wrote i (Frame.bare kind)) where
  phase := h.phase
  store := h.store
  dirty := h.dirty
  signals := by
    rw [← h.signals]
    simp [Session.signals, Session.wrote, Trace.events_record, Event.signal?]
  written := by
    have hw : (t.wrote i (Frame.bare kind)).written = t.written ++ [(i, Frame.bare kind)] := by
      simp [Session.written, Session.wrote, Trace.events_record, Event.write?]
    rw [hw, h.written]
    simp

theorem Reflects.drop (h : Reflects s i n d t) (hu : Dropped t u) : Reflects s i n d.drop u where
  phase := hu.phase
  store := hu.store
  dirty := hu.dirty
  signals := by
    rw [hu.signals, h.signals, h.store]
    simp [Digest.drop]
  written := hu.written.trans h.written

/-- A digest that has dropped the connection has nothing more to handle. -/
theorem Reflects.tracks_of_dropped (h : Reflects s i n d t) (hd : d.phase ≠ .connected)
    (hr : t.link.readsFrom = none) (inbox : Inbox) : Tracks s i n d inbox t where
  toReflects := h
  alive hp := absurd hp hd
  serving hp := absurd hp hd
  dropped _ := hr

theorem Tracks.absorb_of_dropped (h : Tracks s i n d inbox t) (hd : d.phase ≠ .connected)
    (p : Inbox.Drained) (rest : Inbox) : Tracks s i n (d.absorb p) rest t := by
  rw [Digest.absorb_of_dropped hd]
  exact h.toReflects.tracks_of_dropped hd (h.dropped hd) rest

/-- What leaves the link, its connections and the trace as they are, for the most part. -/
theorem Tracks.congr (h : Tracks s i n d inbox t) (life : u.link.life = t.link.life)
    (signal : u.link.signal = t.link.signal) (store : u.link.store = t.link.store)
    (writesTo : u.link.writesTo = t.link.writesTo) (readsFrom : u.link.readsFrom = t.link.readsFrom)
    (connections : u.network.connections = t.network.connections) (signals : u.signals = t.signals)
    (written : u.written = t.written) : Tracks s i n d inbox u where
  toReflects := h.toReflects.congr life store (by rw [signal]) signals written
  alive := h.alive
  serving hp := (h.serving hp).congr life (by rw [signal]) writesTo readsFrom connections
  dropped hp := readsFrom.trans (h.dropped hp)

theorem Tracks.hushed (h : Tracks s i n d inbox t) (hu : Hushed t u) : Tracks s i n d inbox u :=
  h.congr (by rw [hu.same]) (by rw [hu.same]) (by rw [hu.same]) (by rw [hu.same]) (by rw [hu.same])
    (by rw [hu.same]) hu.signals hu.written

theorem Tracks.log (h : Tracks s i n d inbox t) (level : Level) (text : String) :
    ∃ u, log level text t = .ok () u ∧ Tracks s i n d inbox u :=
  ⟨_, rfl, h.hushed (hushed_record t rfl rfl)⟩

theorem Tracks.refilled (h : Tracks s i n d inbox t) (f : Inbox → Inbox) :
    Tracks s i n d (f inbox) (t.refilled i f) where
  toReflects := h.toReflects.congr rfl rfl rfl rfl rfl
  alive := h.alive
  serving hp := (h.serving hp).refilled f
  dropped := h.dropped

/-- The connection is dropped, without a word to the peer. -/
theorem Tracks.disconnect (h : Tracks s i n d inbox t) (hd : d.phase = .connected) (rest : Inbox) :
    ∃ u, Session.disconnect ask false t = .ok () u ∧ Tracks s i n d.drop rest u := by
  obtain ⟨u, hu, hdropped⟩ := (h.serving hd).disconnect ask false
  exact ⟨u, hu, (h.toReflects.drop hdropped).tracks_of_dropped nofun hdropped.readsFrom rest⟩

theorem Tracks.giveUp (h : Tracks s i n d inbox t) (hd : d.phase = .connected) (e : WireError)
    (rest : Inbox) : ∃ u, Session.giveUp ask e t = .ok () u ∧ Tracks s i n d.giveUp rest u := by
  unfold Session.giveUp
  obtain ⟨v, hv, hlogged⟩ := h.log .warning
    s!"Malformed data from debug server, reconnecting: {e.message}"
  obtain ⟨u, hu, hdropped⟩ := (hlogged.serving hd).disconnect ask true
  refine ⟨u, (bind_of_ok hv).trans hu, ?_⟩
  exact ((hlogged.toReflects.wrote .disconnect).drop hdropped).tracks_of_dropped d.giveUp_dropped
    hdropped.readsFrom rest

/-! ### Handling frames -/

/-- A report is put into the store, and the change is marked. -/
theorem Tracks.report (h : Tracks s i n d inbox t) (hd : d.phase = .connected) (report : Report) :
    ∃ u, (do put report; mark) t = .ok () u ∧
      Tracks s i n { d with store := d.store.put report, dirty := true } inbox u := by
  have hquiet := hushed_record t (e := .log .debug
    s!"Stored {report.diagnostics.length} diagnostics for {report.path.text}") rfl rfl
  refine ⟨_, rfl, ?_, h.alive, fun hp => ?_, fun hp => absurd hd hp⟩
  · exact ⟨h.phase, congrArg (Store.put · report) h.store, ChangeSignal.mark_dirty ..,
      hquiet.signals.trans h.signals, hquiet.written.trans h.written⟩
  · exact (h.serving hp).congr rfl (ChangeSignal.mark_listeners _ _) rfl rfl rfl

theorem handle_of_other {f : Frame} (hp : f.kind? ≠ some .pingAlive)
    (hr : f.kind? ≠ some .diagnostics) (hd : f.kind? ≠ some .disconnect) :
    handle ask f = (do
      DiagnosticWatch.log .debug s!"Ignoring unhandled {f.describe}"
      return .ok ()) := by
  unfold handle
  split <;> first | rfl | contradiction

/-- A frame is handled as it is dispatched, or it is the peer's error. -/
theorem Tracks.handle (h : Tracks s i n d inbox t) (hd : d.phase = .connected) (f : Frame) :
    (∃ u, handle ask f t = .ok (.ok ()) u ∧ Tracks s i n (d.dispatch f) inbox u) ∨
      ∃ e, handle ask f t = .ok (.error e) t ∧ d.dispatch f = d.giveUp := by
  have ht := h.serving hd
  have halive := h.alive.dispatch f
  by_cases hping : f.kind? = some .pingAlive
  · have hdispatch : d.dispatch f = { d with written := d.written ++ [.pingAlive] } := by
      simp [Digest.dispatch, hd, hping]
    rw [hdispatch] at halive ⊢
    refine .inl ⟨t.wrote i (Frame.bare .pingAlive), ?_, h.toReflects.wrote .pingAlive, halive,
      fun _ => ht.wrote _, fun hp => absurd hd hp⟩
    simp only [Session.handle, hping]
    exact bind_of_ok (ht.send ask .pingAlive)
  by_cases hreport : f.kind? = some .diagnostics
  · cases hr : Report.read f.body with
    | error e =>
      exact .inr ⟨e, by simp [Session.handle, hreport, hr], by simp [Digest.dispatch, hd, hreport, hr]⟩
    | ok report =>
      have hdispatch : d.dispatch f = { d with store := d.store.put report, dirty := true } := by
        simp [Digest.dispatch, hd, hreport, hr]
      obtain ⟨u, hu, htracks⟩ := h.report hd report
      refine .inl ⟨u, ?_, hdispatch ▸ htracks⟩
      simp only [Session.handle, hreport, hr]
      rw [← bind_assoc]
      exact bind_of_ok hu
  by_cases hleave : f.kind? = some .disconnect
  · have hdispatch : d.dispatch f = d.drop := by simp [Digest.dispatch, hd, hleave]
    obtain ⟨v, hv, hlogged⟩ := h.log .info "Debug server asked to disconnect"
    obtain ⟨u, hu, hdropped⟩ := hlogged.disconnect ask hd inbox
    refine .inl ⟨u, ?_, hdispatch ▸ hdropped⟩
    simp only [Session.handle, hleave]
    exact (bind_of_ok hv).trans (bind_of_ok hu)
  · obtain ⟨u, hu, hlogged⟩ := h.log .debug s!"Ignoring unhandled {f.describe}"
    rw [Digest.dispatch_of_other hping hreport hleave, handle_of_other ask hping hreport hleave]
    exact .inl ⟨u, bind_of_ok hu, hlogged⟩

/-! ### Handling what was received -/

theorem Tracks.tookOut (h : Tracks s i n d inbox t) (f : Frame) (rest : Inbox) :
    Tracks s i n d rest (t.tookOut i f rest) := by
  have hnoted : Tracks s i n d rest
      { t.refilled i fun _ => rest with link := { t.link with lastTraffic := t.loop.now } } :=
    (h.refilled fun _ => rest).congr rfl rfl rfl rfl rfl rfl rfl rfl
  exact hnoted.hushed (hushed_record _ (e := .handled i f) rfl rfl)

/-- The frames that are there as a whole are handled as the digest absorbs them. The
induction is on the bound, which is more than there are bytes. -/
theorem Tracks.drain (bound : Nat) : ∀ {d inbox t}, Tracks s i n d inbox t →
    (d.phase = .connected → inbox.size < bound) →
    ∃ u, Session.drain ask bound t = .ok () u ∧
      Tracks s i n (d.absorb inbox.drain) inbox.drain.rest u := by
  induction bound with
  | zero =>
    intro d inbox t h hb
    have hd : d.phase ≠ .connected := fun hp => absurd (hb hp) (Nat.not_lt_zero _)
    exact ⟨t, rfl, h.absorb_of_dropped hd _ _⟩
  | succ bound ih =>
    intro d inbox t h hb
    by_cases hd : d.phase = .connected
    · obtain ⟨r, hr, hheld, -⟩ := (h.serving hd).receiver
      rw [drain_succ ask (h.serving hd).readsFrom hr, hheld]
      rcases hn : inbox.next with ⟨e | _ | f, rest⟩
      · obtain ⟨-, rfl⟩ := Inbox.garbled_of_next hn
        obtain ⟨u, hu, hgiven⟩ := h.giveUp ask hd e rest
        rw [Inbox.drain_of_error hn]
        exact ⟨u, hu, by simpa [Digest.absorb, hd] using hgiven⟩
      · obtain ⟨-, rfl⟩ := Inbox.partial_of_next hn
        rw [Inbox.drain_of_none hn]
        exact ⟨t, rfl, by simpa [Digest.absorb] using h⟩
      · -- What is handled next is what is behind the frame, unless that was the last.
        have htaken := h.tookOut f rest
        rw [Inbox.drain_of_frame hn, Digest.absorb_after, List.foldl_cons, List.foldl_nil]
        unfold hear
        obtain ⟨v, hv, hhandled⟩ | ⟨e, he, hgiven⟩ := htaken.handle ask hd f
        · simp only [bind_of_ok hv]
          have hsize := Inbox.size_lt_of_next hn
          exact ih hhandled fun _ => by have := hb hd; omega
        · simp only [bind_of_ok he]
          rw [hgiven, Digest.absorb_of_dropped d.giveUp_dropped]
          exact htaken.giveUp ask hd e _
    · exact ⟨t, drain_of_none ask (by simp [receiver?, h.dropped hd]) _, h.absorb_of_dropped hd _ _⟩

theorem Tracks.drainAll (h : Tracks s i n d inbox t) (hd : d.phase = .connected) :
    ∃ u, Session.drainAll ask t = .ok () u ∧
      Tracks s i n (d.absorb inbox.drain) inbox.drain.rest u := by
  obtain ⟨r, hr, rfl, -⟩ := (h.serving hd).receiver
  obtain ⟨u, hu, htracks⟩ := h.drain ask (r.inbox.size + 1) fun _ => Nat.lt_succ_self _
  refine ⟨u, ?_, htracks⟩
  unfold Session.drainAll
  rw [get_bind_apply, hr]
  exact hu

/-! ### Ticks and chunks -/

/-- Whether a tick finds that nothing was sent or handled for too long. -/
def isSilent (s : Session) : Bool :=
  s.phase = .connected && s.link.settings.keepAliveInterval.below (s.loop.now - s.link.lastTraffic)

/-- The session at another time. -/
def clocked (now : Float) (s : Session) : Session :=
  { s with loop := { s.loop with now } }

/-- A sign of life makes one more, since nothing else was written before. -/
theorem Reflects.signOfLife (h : Reflects s i n d t) (hd : d.phase = .connected) (ha : d.Alive) :
    Reflects s i (n + 1) d (t.wrote i (Frame.bare .pingAlive)) := by
  have hw := h.wrote .pingAlive
  have hpings : d.written = List.replicate d.written.length .pingAlive :=
    List.eq_replicate_iff.mpr ⟨rfl, ha hd⟩
  refine { hw with written := hw.written.trans ?_ }
  generalize d.written.length = m at hpings
  simp only [hpings, ← List.replicate_succ', List.replicate_append_replicate]
  rw [Nat.add_right_comm, Nat.add_assoc]

/-- What a tick finds is told, which says nothing of the digest. -/
theorem Tracks.looked (h : Tracks s i n d inbox t) (finding : Finding) :
    Tracks s i n d inbox (t.telling (.looked i finding)) :=
  h.hushed (hushed_record t (e := .looked i finding) rfl rfl)

theorem Tracks.signOfLife (h : Tracks s i n d inbox t) (hd : d.phase = .connected) :
    ∃ u, (do
      onLink fun l => { l with lastTraffic := t.loop.now }
      sendAlive ask) t = .ok true u ∧ Tracks s i (n + 1) d inbox u := by
  have hnoted : Tracks s i n d inbox { t with link := { t.link with lastTraffic := t.loop.now } } :=
    h.congr rfl rfl rfl rfl rfl rfl rfl rfl
  have hserving := hnoted.serving hd
  refine ⟨_, hserving.send ask .pingAlive, ?_⟩
  exact ⟨hnoted.toReflects.signOfLife hd h.alive, h.alive, fun _ => hserving.wrote _,
    fun hp => absurd hd hp⟩

/-- A tick handles what is there, after a sign of life if there was a silence. -/
theorem Tracks.tick (h : Tracks s i n d inbox t) :
    ∃ u, Session.tick ask t = .ok () u ∧
      Tracks s i (n + t.isSilent.toNat) (d.absorb inbox.drain) inbox.drain.rest u := by
  unfold Session.tick
  rw [get_bind_apply]
  by_cases hd : d.phase = .connected
  · have ht := h.serving hd
    rw [if_neg (by simp [ht.connected]), if_neg (by simp [ht.isUp])]
    split
    · rename_i hsilent
      have hone : t.isSilent.toNat = 1 := by simp [isSilent, ht.connected, hsilent]
      obtain ⟨v, hv, htracks⟩ := (h.looked .silent).signOfLife ask hd
      obtain ⟨u, hu, hdrained⟩ := htracks.drainAll ask hd
      rw [hone]
      refine ⟨u, ?_, hdrained⟩
      rw [bind_of_ok (tellOfHeld_apply ht.writesTo _), ← bind_assoc]
      exact (bind_of_ok hv).trans hu
    · rename_i hsilent
      have hzero : t.isSilent.toNat = 0 := by simp [isSilent, hsilent]
      rw [hzero, bind_of_ok (tellOfHeld_apply ht.writesTo _)]
      exact (h.looked .calm).drainAll ask hd
  · have hp : t.phase ≠ .connected := h.phase ▸ hd
    have hzero : t.isSilent.toNat = 0 := by simp [isSilent, hp]
    rw [if_pos hp, hzero]
    exact ⟨t, rfl, h.absorb_of_dropped hd _ _⟩

theorem answer_data (i : Option Nat) (bytes : List UInt8) (t : Session) :
    answer ask (.data bytes i) t = .ok .nothing
      (if t.chosen i < t.network.connections.size then t.refilled (t.chosen i) fun b => b.feed bytes
        else t) := by
  have hanswer : answer ask (.data bytes i) t =
      ((if t.chosen i < t.network.connections.size then do
          onConnection (t.chosen i) fun c => { c with receiver := c.receiver.receive bytes }
          [].forM tell
        else pure ()) >>= fun _ => pure .nothing : Act Session Answer) t := rfl
  rw [hanswer]
  split <;> rfl

/-- Bytes that arrive are there to be handled, unless the connection was dropped. -/
theorem Tracks.data (h : Tracks s i n d inbox t) (bytes : List UInt8) :
    ∃ u, answer ask (.data bytes (some i)) t = .ok .nothing u ∧
      Tracks s i n d (inbox.feed bytes) u := by
  refine ⟨_, answer_data ask (some i) bytes t, ?_⟩
  split
  · exact h.refilled fun b => b.feed bytes
  · -- There is no such connection, so that the link has dropped what it had.
    rename_i hi
    have hd : d.phase ≠ .connected := by
      intro hp
      obtain ⟨c, hc, -⟩ := (h.serving hp).connection
      exact hi (Array.getElem?_eq_some_iff.mp hc).1
    exact h.toReflects.tracks_of_dropped hd (h.dropped hd) _

/-! ### What arrives -/

/-- What happens to the session when something arrives on connection `i`. -/
def arrive (i : Nat) (s : Session) : Arrival → Answer × Session
  | .chunk bytes => s.step (.ask (.data bytes (some i)))
  | .tick now => (s.clocked now).step (.ask .tick)

/-- The session when all has arrived. -/
def heard (i : Nat) (s : Session) (arrivals : List Arrival) : Session :=
  arrivals.foldl (fun s a => (s.arrive i a).2) s

/-- What the arrivals are answered with. -/
def answers (i : Nat) : Session → List Arrival → List Answer
  | _, [] => []
  | s, a :: arrivals => (s.arrive i a).1 :: answers i (s.arrive i a).2 arrivals

/-- How many signs of life are sent after a silence. -/
def keepAlives (i : Nat) : Session → List Arrival → Nat
  | _, [] => 0
  | s, a :: arrivals =>
    let here := match a with
      | .chunk _ => 0
      | .tick now => (s.clocked now).isSilent.toNat
    here + keepAlives i (s.arrive i a).2 arrivals

theorem step_ask (s : Session) (request : Request) {a : Answer}
    (h : Session.answer (perform 999) request s = .ok a t) : s.step (.ask request) = (a, t) := by
  have hperform : takeStep (perform maxDepth) maxJobs (.ask request) =
      answer (perform 999) request := rfl
  simp only [step, hperform, h]

/-- What arrives is answered with nothing, and the session goes on where the digest
goes. -/
theorem Tracks.arrive (h : Tracks s i n d inbox t) (a : Arrival) :
    (t.arrive i a).1 = .nothing ∧
      Tracks s i (n + t.keepAlives i [a]) (Digest.advance (d, inbox) a).1
        (Digest.advance (d, inbox) a).2 (t.arrive i a).2 := by
  cases a with
  | chunk bytes =>
    obtain ⟨u, hu, htracks⟩ := h.data (perform 999) bytes
    have harrive : t.arrive i (.chunk bytes) = (.nothing, u) := step_ask t _ hu
    rw [harrive]
    exact ⟨rfl, htracks⟩
  | tick now =>
    have hclocked : Tracks s i n d inbox (t.clocked now) := h.congr rfl rfl rfl rfl rfl rfl rfl rfl
    obtain ⟨u, hu, htracks⟩ := hclocked.tick (perform 999)
    have harrive : t.arrive i (.tick now) = (.nothing, u) := step_ask _ _ (bind_of_ok hu)
    rw [harrive]
    exact ⟨rfl, htracks⟩

/-- The induction is on the arrivals, for any session that is where some digest is. -/
theorem Tracks.heard (arrivals : List Arrival) : ∀ {n d inbox t}, Tracks s i n d inbox t →
    (∀ a ∈ t.answers i arrivals, a = .nothing) ∧
      Tracks s i (n + t.keepAlives i arrivals) (arrivals.foldl Digest.advance (d, inbox)).1
        (arrivals.foldl Digest.advance (d, inbox)).2 (t.heard i arrivals) := by
  induction arrivals with
  | nil => exact fun h => ⟨nofun, h⟩
  | cons a arrivals ih =>
    intro n d inbox t h
    obtain ⟨hanswer, harrive⟩ := h.arrive a
    obtain ⟨hanswers, hheard⟩ := ih harrive
    refine ⟨?_, ?_⟩
    · intro b hb
      rcases List.mem_cons.mp hb with rfl | hb
      · exact hanswer
      · exact hanswers b hb
    · have hcount : n + t.keepAlives i (a :: arrivals) =
          n + t.keepAlives i [a] + (t.arrive i a).2.keepAlives i arrivals := by
        simp only [keepAlives]
        omega
      rw [hcount]
      exact hheard

/-- A connected session, whose connection takes writes and whose listeners ask for
nothing, that only receives bytes and is ticked, the last time when all have arrived:
however the bytes are cut into chunks, and whenever it is ticked in between and by what
clock, everything is answered, and in the end the phase, the reports, the mark, the
signals and the writes are what the bytes come to at once, but for the signs of life sent
after a silence. -/
theorem heard_eq_fold (h : s.Serving i inbox) (bytes : List UInt8) :
    let d := (Digest.begin s.link.store s.link.signal.dirty).absorb (inbox.feed bytes).drain
    ∀ (arrivals : List Arrival) (now : Float), arrivals.flatMap Arrival.bytes = bytes →
      let all := arrivals ++ [Arrival.tick now]
      (∀ a ∈ s.answers i all, a = .nothing) ∧ Reflects s i (s.keepAlives i all) d (s.heard i all) := by
  rintro d arrivals now rfl
  have hbegin : Tracks s i 0 (Digest.begin s.link.store s.link.signal.dirty) inbox s :=
    ⟨⟨h.connected, rfl, rfl, by simp [Digest.begin], by simp [Digest.begin]⟩, nofun, fun _ => h,
      fun hp => absurd rfl hp⟩
  obtain ⟨hanswers, htracks⟩ := hbegin.heard (arrivals ++ [Arrival.tick now])
  refine ⟨hanswers, ?_⟩
  have hreflects := htracks.toReflects
  rwa [Digest.foldl_advance, Nat.zero_add] at hreflects

theorem heard_of_report :
    let s := (start {} {} .empty [⟨.opens, .int 0, .none, [], false, []⟩] none).after
      [.ask (.subscribe "view" fun _ => [.fail "closed"]), .ask (.connect "127.0.0.1" (.int 27099)),
        .pass (.int 0)]
    let all : List Arrival := [.chunk [11, 0, 0, 0, 0, 3, 0], .tick 1000.5,
      .chunk [0, 0, 47, 97, 0, 0, 0, 0, 0, 0, 0, 0, 0, 32, 0, 0], .tick 1001, .chunk [0, 0, 25, 9],
      .tick 1002]
    s.Serving 0 .empty ∧ (∀ a ∈ s.answers 0 all, a = .nothing) ∧
      Reflects s 0 (s.keepAlives 0 all) ⟨.disconnected, .empty, false, [[]], [.pingAlive]⟩
        (s.heard 0 all) := by
  intro s all
  have hall : s.link.life.listeners ++ s.link.signal.listeners =
      [⟨0, "view", fun _ => [.fail "closed"], none⟩] := rfl
  have hmute : s.Mute := mute_of_listeners hall (List.forall_mem_singleton.mpr fun _ => rfl)
  have hserving : s.Serving 0 .empty := { hmute with
    connected := by decide +kernel
    writesTo := by decide +kernel
    readsFrom := by decide +kernel
    connection := by
      refine ⟨⟨⟨.empty, true, false, none⟩, false, none⟩, ?_, ⟨rfl, rfl, rfl, rfl⟩, rfl⟩
      decide +kernel }
  have hdigest : (Digest.begin s.link.store s.link.signal.dirty).absorb (Inbox.feed .empty
      [11, 0, 0, 0, 0, 3, 0, 0, 0, 47, 97, 0, 0, 0, 0, 0, 0, 0, 0, 0, 32, 0, 0, 0, 0, 25, 9]).drain =
      ⟨.disconnected, .empty, false, [[]], [.pingAlive]⟩ := by
    decide +kernel
  have hheard := heard_eq_fold hserving _ (all.take 5) 1002 rfl
  exact ⟨hserving, hheard.1, hdigest ▸ hheard.2⟩

end Session
end DiagnosticWatch
