/-
# What a peer leaves behind

A peer that closes its connection may leave whole frames on it, and the link
stays connected for them. But the transport takes no writes any more, so that
the link disconnects as soon as there is a sign of life to send: at once if one
is due after a silence (then it handles nothing), and else upon the first frame
that asks for one (then it handles what stands before it, and this frame). What
stands behind is lost. Only where no frame but the last asks for a sign of
life, and none is due, everything is handled (`Finding.heeded_eq_iff`).

Key definitions: `Frame.Harmless`, `Inbox.Carries`, `Finding.heeded`,
`Finding.reason`, `Session.Forsaken`, `Session.Passes`, `Session.peerCloses`.
Key theorems: `Session.Forsaken.drain`, `Session.Forsaken.tick`,
`Session.forsaken_of_peerCloses`, `Session.handled_until_ping`.
-/
import DiagnosticWatch.Proofs.Session.Clearance
import DiagnosticWatch.Proofs.Session.TalkOfCalls
import DiagnosticWatch.Proofs.Session.Stream
import DiagnosticWatch.Proofs.Session.Unfailing

namespace DiagnosticWatch

namespace Frame

/-- A frame upon which the link neither gives the connection up nor is asked to disconnect. -/
structure Harmless (f : Frame) : Prop where
  fits : f.Fits
  stays : f.kind? ≠ some .disconnect
  readable : f.kind? = some .diagnostics → ∃ report, Report.read f.body = .ok report

/-- The report that a frame brings. -/
def report? (f : Frame) : Option Report :=
  if f.kind? = some .diagnostics then (Report.read f.body).toOption else none

/-- What is logged about a frame that does not ask for a sign of life. -/
def remark (f : Frame) : String :=
  match f.report? with
  | some report => s!"Stored {report.diagnostics.length} diagnostics for {report.path.text}"
  | none => s!"Ignoring unhandled {f.describe}"

/-- What is told when a frame of connection `i` is handled, up to a sign of life. -/
def account (i : Nat) (f : Frame) : List Event :=
  .handled i f :: if f.kind? = some .pingAlive then [] else [.log .debug f.remark]

/-- The frames up to the first that asks for a sign of life, which is one of them. -/
def untilPing : List Frame → List Frame
  | [] => []
  | f :: frames => f :: if f.kind? = some .pingAlive then [] else untilPing frames

theorem untilPing_eq_iff (frames : List Frame) :
    untilPing frames = frames ↔ ∀ f ∈ frames.dropLast, f.kind? ≠ some .pingAlive := by
  induction frames with
  | nil => simp [untilPing]
  | cons f frames ih =>
    unfold untilPing
    cases frames with
    | nil => split <;> simp [untilPing]
    | cons g frames =>
      by_cases hping : f.kind? = some .pingAlive
      · simp [hping]
      · simp [hping, ih]

end Frame

namespace Inbox

variable {inbox : Inbox} {f : Frame} {frames : List Frame}

/-- The inbox holds these frames, and behind them a part of another. -/
def Carries (inbox : Inbox) (frames : List Frame) : Prop :=
  ∃ tail, Frame.IsPartial tail ∧ inbox.bytes = frames.flatMap Frame.bytes ++ tail

theorem Carries.next_nil (h : inbox.Carries []) : inbox.next = (.ok none, inbox) := by
  obtain ⟨tail, hp, hb⟩ := h
  have hn : Frame.next? inbox.bytes = .ok none := hb ▸ Frame.next?_of_partial hp
  simp [next, hn]

theorem Carries.next_cons (h : inbox.Carries (f :: frames)) (hf : f.Fits) :
    ∃ rest, inbox.next = (.ok (some f), rest) ∧ rest.Carries frames := by
  obtain ⟨tail, hp, hb⟩ := h
  have hn : Frame.next? inbox.bytes = .ok (some (f, frames.flatMap Frame.bytes ++ tail)) := by
    rw [hb, List.flatMap_cons, List.append_assoc]
    exact Frame.next?_bytes_append hf _
  exact ⟨⟨frames.flatMap Frame.bytes ++ tail⟩, by simp [next, hn], tail, hp, rfl⟩

theorem Carries.hasFrame (h : inbox.Carries frames) (hf : ∀ f ∈ frames, f.Fits) :
    inbox.hasFrame = !frames.isEmpty := by
  cases frames with
  | nil => exact hasFrame_of_next h.next_nil
  | cons f frames =>
    obtain ⟨rest, hn, -⟩ := h.next_cons (hf f List.mem_cons_self)
    exact hasFrame_iff.mpr ⟨f, rest, hn⟩

/-- Each frame is at least one byte long. -/
theorem Carries.length_le (h : inbox.Carries frames) : frames.length ≤ inbox.size := by
  obtain ⟨tail, -, hb⟩ := h
  unfold size
  rw [hb, List.length_append]
  refine Nat.le_add_right_of_le ?_
  clear hb
  induction frames with
  | nil => exact Nat.zero_le _
  | cons f frames ih =>
    rw [List.flatMap_cons, List.length_append, Frame.length_bytes, List.length_cons]
    omega

end Inbox

/-- The peer has left cleanly, the transport is closing, and these frames are left. -/
structure Connection.Forsaken (c : Connection) (frames : List Frame) : Prop where
  closing : c.closing = true
  peerClosed : c.receiver.peerClosed = true
  error : c.receiver.error = none
  inbox : c.receiver.inbox.Carries frames

/-- What is told when the transport does not take a sign of life on connection `i`. -/
def unanswered (i : Nat) : List Event :=
  let fault : Fault := .write .closed
  [.unsent i .closed, .log .info
    s!"Sending {Session.codeName Kind.pingAlive.code} failed, dropping connection: {fault.message}"]

namespace Finding

/-- The frames that a tick with this finding handles, of those that the peer has left. -/
def heeded : Finding → List Frame → List Frame
  | .calm, frames => Frame.untilPing frames
  | _, _ => []

/-- Why a tick with this finding drops the connection `i` on which the peer has left these frames,
if it does. -/
def reason (i : Nat) (frames : List Frame) : Finding → List Event
  | .gone => [.log .info "Debug server closed the connection"]
  | .silent => unanswered i
  | .calm => if frames.any (·.kind? = some .pingAlive) then unanswered i else []

/-- All frames are handled if none but the last asks for a sign of life, and none is due. -/
theorem heeded_eq_iff {finding : Finding} {frames : List Frame}
    (h : finding = .gone ↔ frames = []) : finding.heeded frames = frames ↔
      finding ≠ .silent ∧ ∀ f ∈ frames.dropLast, f.kind? ≠ some .pingAlive := by
  cases finding with
  | gone => simp [heeded, h.mp rfl]
  | silent =>
    have hne : frames ≠ [] := fun hnil => nomatch h.mpr hnil
    simpa [heeded] using hne.symm
  | calm => simpa [heeded] using Frame.untilPing_eq_iff frames

end Finding

namespace Session

open Act

variable (ask : Request → Act Session Answer) {s t u v : Session} {i : Nat} {c : Connection}
  {f : Frame} {frames more : List Frame}

/-- The link is connected, and `c` is its connection `i`. -/
structure Bound (s : Session) (i : Nat) (c : Connection) : Prop where
  connected : s.phase = .connected
  writesTo : s.link.writesTo = some i
  readsFrom : s.link.readsFrom = some i
  connection : s.network.connections[i]? = some c

/-- The link is connected, and its peer has left these frames on connection `i`. -/
def Forsaken (s : Session) (i : Nat) (frames : List Frame) : Prop :=
  ∃ c, s.Bound i c ∧ c.Forsaken frames

theorem Bound.congr (h : s.Bound i c) (life : t.link.life = s.link.life)
    (writesTo : t.link.writesTo = s.link.writesTo) (readsFrom : t.link.readsFrom = s.link.readsFrom)
    (connections : t.network.connections = s.network.connections) : t.Bound i c where
  connected := by rw [phase, life, ← phase, h.connected]
  writesTo := writesTo.trans h.writesTo
  readsFrom := readsFrom.trans h.readsFrom
  connection := connections ▸ h.connection

theorem Bound.changed (h : s.Bound i c) (g : Connection → Connection)
    (life : t.link.life = s.link.life) (writesTo : t.link.writesTo = s.link.writesTo)
    (readsFrom : t.link.readsFrom = s.link.readsFrom)
    (connections : t.network.connections = s.network.connections.modify i g) :
    t.Bound i (g c) where
  connected := by rw [phase, life, ← phase, h.connected]
  writesTo := writesTo.trans h.writesTo
  readsFrom := readsFrom.trans h.readsFrom
  connection := by simp [connections, Array.getElem?_modify, h.connection]

theorem Forsaken.congr (h : s.Forsaken i frames) (life : t.link.life = s.link.life)
    (writesTo : t.link.writesTo = s.link.writesTo) (readsFrom : t.link.readsFrom = s.link.readsFrom)
    (connections : t.network.connections = s.network.connections) : t.Forsaken i frames := by
  obtain ⟨c, hb, hc⟩ := h
  exact ⟨c, hb.congr life writesTo readsFrom connections, hc⟩

theorem Forsaken.tellingAll (h : s.Forsaken i frames) (events : List Event) :
    (s.tellingAll events).Forsaken i frames :=
  h.congr rfl rfl rfl rfl

theorem Forsaken.connected (h : s.Forsaken i frames) : s.phase = .connected := by
  obtain ⟨c, hb, -⟩ := h
  exact hb.connected

theorem Forsaken.writesTo (h : s.Forsaken i frames) : s.link.writesTo = some i := by
  obtain ⟨c, hb, -⟩ := h
  exact hb.writesTo

/-- A forsaken session is fit for whatever may be asked. -/
theorem Forsaken.fit (h : s.Forsaken i frames) : s.Fit fun _ => True := by
  obtain ⟨c, hb, -⟩ := h
  exact ⟨scripted_of_all s, fun hp => absurd hb.connected hp,
    fun _ => ⟨i, hb.writesTo, hb.readsFrom⟩⟩

/-! ### Handling what is left -/

/-- From `s` to `t` these frames of connection `i` were handled without a sign of life. -/
structure Heard (s : Session) (i : Nat) (frames : List Frame) (t : Session) : Prop where
  store : t.link.store = (frames.filterMap Frame.report?).foldl Store.put s.link.store
  events : t.trace.events = s.trace.events ++ frames.flatMap (Frame.account i)

theorem Heard.refl (s : Session) (i : Nat) : s.Heard i [] s := ⟨rfl, by simp⟩

theorem Heard.trans (h : s.Heard i frames t) (h' : t.Heard i more u) :
    s.Heard i (frames ++ more) u where
  store := by rw [h'.store, h.store, List.filterMap_append, List.foldl_append]
  events := by rw [h'.events, h.events, List.flatMap_append, List.append_assoc]

/-- The next frame is taken out. -/
theorem Forsaken.tookOut (h : s.Forsaken i (f :: frames)) (hf : f.Fits) :
    ∃ r rest, s.link.readsFrom = some i ∧ s.receiver? = some r ∧
      r.inbox.next = (.ok (some f), rest) ∧ (s.tookOut i f rest).Forsaken i frames := by
  obtain ⟨c, hb, hc⟩ := h
  obtain ⟨rest, hn, hrest⟩ := hc.inbox.next_cons hf
  refine ⟨c.receiver, rest, hb.readsFrom, ?_, hn, ?_⟩
  · simp [receiver?, hb.readsFrom, hb.connection]
  · refine ⟨_, hb.changed (fun c => { c with receiver := { c.receiver with inbox := rest } })
      rfl rfl rfl rfl, ?_⟩
    exact ⟨hc.closing, hc.peerClosed, hc.error, hrest⟩

theorem Forsaken.drain_nil (h : s.Forsaken i []) (bound : Nat) :
    drain ask (bound + 1) s = .ok () s := by
  obtain ⟨c, hb, hc⟩ := h
  have hr : s.receiver? = some c.receiver := by simp [receiver?, hb.readsFrom, hb.connection]
  rw [drain_succ ask hb.readsFrom hr, hc.inbox.next_nil]

/-- A frame that does not ask for a sign of life is handled, and the link stays connected. -/
theorem Forsaken.handle (h : s.Forsaken i frames) (hf : f.Harmless)
    (hp : f.kind? ≠ some .pingAlive) :
    ∃ u, handle ask f s = .ok (.ok ()) u ∧ u.Forsaken i frames ∧
      u.link.store = f.report?.toList.foldl Store.put s.link.store ∧
      u.trace.events = s.trace.events ++ [.log .debug f.remark] := by
  by_cases hk : f.kind? = some .diagnostics
  · obtain ⟨report, hreport⟩ := hf.readable hk
    have hbrings : f.report? = some report := by simp [Frame.report?, hk, hreport, Except.toOption]
    refine ⟨((s.stored report).telling (.log .debug
      s!"Stored {report.diagnostics.length} diagnostics for {report.path.text}")).marked, ?_,
      h.congr rfl rfl rfl rfl, ?_, ?_⟩
    · simp only [Session.handle, hk, hreport]
      rfl
    · rw [hbrings]
      rfl
    · unfold Frame.remark
      rw [hbrings]
      exact Trace.events_record _ _
  · have hbrings : f.report? = none := by simp [Frame.report?, hk]
    refine ⟨s.telling (.log .debug s!"Ignoring unhandled {f.describe}"), ?_,
      h.congr rfl rfl rfl rfl, ?_, ?_⟩
    · rw [handle_of_other ask hp hk hf.stays]
      rfl
    · rw [hbrings]
      rfl
    · unfold Frame.remark
      rw [hbrings]
      exact Trace.events_record _ _

theorem hear_of_ping (hp : f.kind? = some .pingAlive) (next : Act Session Unit) :
    hear ask f next = sendAlive ask >>= fun _ => next := by
  unfold hear Session.handle
  rw [hp, bind_assoc]
  rfl

/-- A frame that asks for a sign of life brings no report. -/
theorem heard_ping (s : Session) (i : Nat) (hp : f.kind? = some .pingAlive) (rest : Inbox) :
    s.Heard i [f] (s.tookOut i f rest) where
  store := by
    have hnone : f.report? = none := by simp [Frame.report?, hp]
    rw [List.filterMap_cons_none hnone]
    rfl
  events := by
    rw [show (s.tookOut i f rest).trace = s.trace.record (.handled i f) from rfl,
      Trace.events_record]
    simp [Frame.account, hp]

/-- Any other frame is handled, and what follows begins there. -/
theorem Forsaken.hear {rest : Inbox} (h : (s.tookOut i f rest).Forsaken i frames)
    (hf : f.Harmless) (hp : f.kind? ≠ some .pingAlive) :
    ∃ u, u.Forsaken i frames ∧ s.Heard i [f] u ∧
      ∀ next, hear ask f next (s.tookOut i f rest) = next u := by
  obtain ⟨u, hu, hkept, hstore, hevents⟩ := h.handle ask hf hp
  refine ⟨u, hkept, ⟨?_, ?_⟩, fun next => bind_of_ok hu⟩
  · rw [hstore]
    cases hr : f.report? <;> simp [hr] <;> rfl
  · rw [hevents, show (s.tookOut i f rest).trace = s.trace.record (.handled i f) from rfl,
      Trace.events_record]
    simp [Frame.account, hp]

/-- From `s` the act handles these frames and comes to `v`, where the link is still connected. If
one of them, which can only be the last, asks for a sign of life, the act goes on by sending it. -/
def Spends (act : Act Session Unit) (i : Nat) (frames : List Frame) (s v : Session) : Prop :=
  s.Heard i (Frame.untilPing frames) v ∧
    ((∀ f ∈ frames, f.kind? ≠ some .pingAlive) → act s = .ok () v) ∧
    ((∃ f ∈ frames, f.kind? = some .pingAlive) → ∃ bound,
      act s = (sendAlive ask >>= fun _ => drain ask bound : Act Session Unit) v)

theorem Spends.cons {act act' : Act Session Unit} (hp : f.kind? ≠ some .pingAlive)
    (hone : s.Heard i [f] u) (h : Spends ask act' i frames u v) (he : act s = act' u) :
    Spends ask act i (f :: frames) s v := by
  obtain ⟨hheard, hall, hping⟩ := h
  refine ⟨?_, fun hnone => ?_, fun ⟨g, hg, hgp⟩ => ?_⟩
  · simpa [Frame.untilPing, hp] using hone.trans hheard
  · exact he.trans (hall fun g hg => hnone g (List.mem_cons_of_mem f hg))
  · rcases List.mem_cons.mp hg with rfl | hg
    · exact absurd hgp hp
    · obtain ⟨bound, hb⟩ := hping ⟨g, hg, hgp⟩
      exact ⟨bound, he.trans hb⟩

/-- The frames are handled up to the first that asks for a sign of life. The induction is on the
frames. -/
theorem Forsaken.drain (hf : ∀ f ∈ frames, f.Harmless) : ∀ {s : Session} {bound : Nat},
    s.Forsaken i frames → frames.length < bound →
    ∃ v rest, v.Forsaken i rest ∧ Spends ask (drain ask bound) i frames s v := by
  induction frames with
  | nil =>
    rintro s (_ | bound) h hb
    · exact absurd hb (Nat.not_lt_zero _)
    · exact ⟨s, [], h, .refl s i, fun _ => h.drain_nil ask bound, nofun⟩
  | cons f frames ih =>
    rintro s (_ | bound) h hb
    · exact absurd hb (Nat.not_lt_zero _)
    obtain ⟨hfirst, hothers⟩ := List.forall_mem_cons.mp hf
    obtain ⟨r, rest, hi, hr, hn, htook⟩ := h.tookOut hfirst.fits
    have hdrain : Session.drain ask (bound + 1) s =
        Session.hear ask f (Session.drain ask bound) (s.tookOut i f rest) := by
      rw [drain_succ ask hi hr, hn]
    by_cases hp : f.kind? = some .pingAlive
    · refine ⟨s.tookOut i f rest, frames, htook, ?_,
        fun hnone => absurd hp (hnone f List.mem_cons_self), fun _ => ⟨bound, ?_⟩⟩
      · simpa [Frame.untilPing, hp] using heard_ping s i hp rest
      · rw [hdrain, hear_of_ping ask hp]
    · obtain ⟨u, hkept, hone, hnext⟩ := htook.hear ask hfirst hp
      obtain ⟨v, left, hv, hspends⟩ := ih hothers hkept (Nat.lt_of_succ_lt_succ hb)
      exact ⟨v, left, hv, hspends.cons ask hp hone (hdrain.trans (hnext _))⟩

/-! ### A tick -/

theorem Forsaken.isUp (h : s.Forsaken i frames) (hf : ∀ f ∈ frames, f.Fits) :
    s.isUp = !frames.isEmpty := by
  obtain ⟨c, hb, hc⟩ := h
  simp [Session.isUp, receiver?, hb.connected, hb.readsFrom, hb.connection, Receiver.isAlive,
    hc.peerClosed, hc.error, hc.inbox.hasFrame hf]

theorem Forsaken.finding_eq_gone_iff (h : s.Forsaken i frames) (hf : ∀ f ∈ frames, f.Fits) :
    s.finding = .gone ↔ frames = [] := by
  unfold finding
  rw [h.isUp hf]
  cases frames with
  | nil => simp
  | cons f frames =>
    simp only [List.isEmpty_cons, Bool.not_false, Bool.not_true, Bool.false_eq_true, ↓reduceIte,
      reduceCtorEq, iff_false]
    split <;> nofun

theorem Forsaken.writeFault (h : s.Forsaken i frames) : s.writeFault? = some .closed := by
  obtain ⟨c, hb, hc⟩ := h
  simp [writeFault?, hb.writesTo, hb.connection, hc.closing]

/-- A sign of life is not taken, and the connection is dropped for that. -/
theorem Forsaken.sendAlive (h : s.Forsaken i frames) : sendAlive ask s =
    (disconnect ask false >>= fun _ => pure false : Act Session Bool)
      (s.tellingAll (unanswered i)) := by
  have hsend := send_of_fault ask h.connected (Frame.encode_bare .pingAlive) h.writeFault nofun
  rwa [held, h.writesTo] at hsend

theorem Forsaken.goneText (h : s.Forsaken i frames) :
    s.goneText = "Debug server closed the connection" := by
  obtain ⟨c, hb, hc⟩ := h
  simp [Session.goneText, receiver?, hb.readsFrom, hb.connection, hc.error]

theorem tick_of_silent (hp : s.phase = .connected) (hw : s.link.writesTo = some i)
    (hs : s.finding = .silent) : tick ask s =
      (Session.sendAlive ask >>= fun sent => if sent then drainAll ask else pure () :
        Act Session Unit)
      { s.telling (.looked i .silent) with link := { s.link with lastTraffic := s.loop.now } } := by
  unfold finding at hs
  split at hs
  · cases hs
  rename_i hup
  split at hs
  · rename_i hsilent
    unfold Session.tick
    rw [get_bind_apply, if_neg (by simp [hp]), if_neg hup, if_pos hsilent,
      bind_of_ok (tellOfHeld_apply hw _)]
    rfl
  · cases hs

theorem tick_of_calm (hp : s.phase = .connected) (hw : s.link.writesTo = some i)
    (hs : s.finding = .calm) : tick ask s = drainAll ask (s.telling (.looked i .calm)) := by
  unfold finding at hs
  split at hs
  · cases hs
  rename_i hup
  split at hs
  · cases hs
  rename_i hcalm
  unfold Session.tick
  rw [get_bind_apply, if_neg (by simp [hp]), if_neg hup, if_neg hcalm,
    bind_of_ok (tellOfHeld_apply hw _)]

/-- From `s` the act comes to `v`, and drops the connection there. -/
def Drops (act : Act Session Unit) (s v : Session) : Prop :=
  ∃ bound, act s = (disconnect ask false >>= fun _ => drain ask bound : Act Session Unit) v

/-- In the course of a tick with this finding the link comes to `v`, still connected, where it has
handled what it heeds of the frames that are left. It stays there, or it drops the connection for a
reason. -/
structure Passes (finding : Finding) (i : Nat) (frames : List Frame) (s v : Session) : Prop where
  connected : v.phase = .connected
  store : v.link.store =
    ((finding.heeded frames).filterMap Frame.report?).foldl Store.put s.link.store
  events : v.trace.events = s.trace.events ++
    .looked i finding :: (finding.heeded frames).flatMap (Frame.account i) ++
      finding.reason i frames
  stays : finding.reason i frames = [] → tick ask s = .ok () v
  drops : finding.reason i frames ≠ [] → Drops ask (tick ask) s v

theorem Forsaken.drainAll (h : s.Forsaken i frames) (hf : ∀ f ∈ frames, f.Harmless) :
    ∃ v rest, v.Forsaken i rest ∧ Spends ask (Session.drainAll ask) i frames s v := by
  obtain ⟨c, hb, hc⟩ := h
  have hr : s.receiver? = some c.receiver := by simp [receiver?, hb.readsFrom, hb.connection]
  have hall : Session.drainAll ask s = Session.drain ask (c.receiver.inbox.size + 1) s := by
    unfold Session.drainAll
    rw [get_bind_apply, hr]
  obtain ⟨v, rest, hv, hspends⟩ :=
    Forsaken.drain ask hf ⟨c, hb, hc⟩ (Nat.lt_succ_of_le hc.inbox.length_le)
  refine ⟨v, rest, hv, ?_⟩
  unfold Spends at hspends ⊢
  rwa [hall]

/-- There is no whole frame left, so that the peer is gone. -/
theorem Forsaken.tick_of_gone (h : s.Forsaken i []) :
    ∃ v, v.Forsaken i [] ∧ Passes ask .gone i [] s v := by
  have hv := h.tellingAll (s.held (.looked · .gone) ++ [.log .info s.goneText])
  refine ⟨_, hv, hv.connected, rfl, ?_, nofun, fun _ => ⟨0, ?_⟩⟩
  · rw [events_tellingAll, held, h.writesTo, h.goneText]
    simp [Finding.heeded, Finding.reason]
  · rw [Session.tick_of_gone ask h.connected (h.isUp nofun)]
    exact (congrFun (bind_pure _) _).symm

/-- A sign of life is due, and no frame is handled. -/
theorem Forsaken.tick_of_silent (h : s.Forsaken i frames) (hs : s.finding = .silent) :
    ∃ v, v.Forsaken i frames ∧ Passes ask .silent i frames s v := by
  have hlooked : Session.Forsaken { s.telling (.looked i .silent) with
      link := { s.link with lastTraffic := s.loop.now } } i frames := h.congr rfl rfl rfl rfl
  have hv := hlooked.tellingAll (unanswered i)
  refine ⟨_, hv, hv.connected, rfl, ?_, nofun, fun _ => ⟨0, ?_⟩⟩
  · rw [events_tellingAll, telling, Trace.events_record]
    simp [Finding.heeded, Finding.reason]
  · rw [Session.tick_of_silent ask h.connected h.writesTo hs, bind_apply, hlooked.sendAlive ask,
      ← bind_apply, bind_assoc]
    rfl

/-- No sign of life is due, and the frames are handled up to the first that asks for one. -/
theorem Forsaken.tick_of_calm (h : s.Forsaken i frames) (hf : ∀ f ∈ frames, f.Harmless)
    (hs : s.finding = .calm) : ∃ v rest, v.Forsaken i rest ∧ Passes ask .calm i frames s v := by
  have hlooked : (s.telling (.looked i .calm)).Forsaken i frames := h.congr rfl rfl rfl rfl
  have htick := Session.tick_of_calm ask h.connected h.writesTo hs
  obtain ⟨v, rest, hv, hheard, hall, hping⟩ := hlooked.drainAll ask hf
  have hevents : v.trace.events = s.trace.events ++
      .looked i .calm :: (Finding.calm.heeded frames).flatMap (Frame.account i) := by
    rw [hheard.events, telling, Trace.events_record, List.append_assoc]
    rfl
  by_cases hp : ∃ f ∈ frames, f.kind? = some .pingAlive
  · have hreason : Finding.calm.reason i frames = unanswered i := if_pos (by simpa using hp)
    obtain ⟨bound, hbound⟩ := hping hp
    have hw := hv.tellingAll (unanswered i)
    refine ⟨_, rest, hw, hw.connected, hheard.store, ?_, ?_, fun _ => ⟨bound, ?_⟩⟩
    · rw [events_tellingAll, hevents, hreason]
    · rw [hreason]
      exact fun hnil => absurd hnil (List.cons_ne_nil _ _)
    · rw [htick, hbound, bind_apply, hv.sendAlive ask, ← bind_apply, bind_assoc]
      rfl
  · have hreason : Finding.calm.reason i frames = [] := if_neg (by simpa using hp)
    refine ⟨v, rest, hv, hv.connected, hheard.store, ?_, fun _ => ?_, fun hne => absurd hreason hne⟩
    · rw [hevents, hreason, List.append_nil]
    · rw [htick]
      exact hall fun f hm hk => hp ⟨f, hm, hk⟩

theorem Forsaken.tick (h : s.Forsaken i frames) (hf : ∀ f ∈ frames, f.Harmless) :
    ∃ v rest, v.Forsaken i rest ∧ Passes ask s.finding i frames s v := by
  cases hs : s.finding with
  | gone =>
    have hnil := (h.finding_eq_gone_iff fun f hm => (hf f hm).fits).mp hs
    subst hnil
    obtain ⟨v, hv, hpasses⟩ := h.tick_of_gone ask
    exact ⟨v, [], hv, hpasses⟩
  | silent =>
    obtain ⟨v, hv, hpasses⟩ := h.tick_of_silent ask hs
    exact ⟨v, frames, hv, hpasses⟩
  | calm => exact h.tick_of_calm ask hf hs

theorem filter_account (i : Nat) (frames : List Frame) :
    (frames.flatMap (Frame.account i)).filter (·.connection? = some i) =
      frames.map (.handled i) := by
  induction frames with
  | nil => rfl
  | cons f frames ih =>
    rw [List.flatMap_cons, List.filter_append, ih]
    unfold Frame.account
    split <;> simp [Event.connection?]

/-- What is said on the connection when it is dropped. -/
theorem Passes.talk {finding : Finding} (h : Passes ask finding i frames s v)
    (hr : finding.reason i frames ≠ []) :
    v.talk i = s.talk i ++ .looked i finding :: (finding.heeded frames).map (.handled i) ++
      if finding = .gone then [] else [.unsent i .closed] := by
  have hreason : (finding.reason i frames).filter (·.connection? = some i) =
      if finding = .gone then [] else [.unsent i .closed] := by
    cases finding with
    | gone | silent => simp [Finding.reason, unanswered, Event.connection?]
    | calm =>
      by_cases hp : frames.any (·.kind? = some .pingAlive) = true
      · have hasks : Finding.calm.reason i frames = unanswered i := if_pos hp
        simp [hasks, unanswered, Event.connection?]
      · exact absurd (if_neg hp) hr
  unfold Session.talk
  rw [h.events, List.filter_append, List.filter_append, hreason, List.filter_cons,
    filter_account]
  simp [Event.connection?]

/-- Where the link has dropped the connection, it is not connected, and has said nothing on the
connection but that it closes it, whatever the listeners ask for. -/
theorem lands_of_drops {act : Act Session Unit} (ha : Asks (fun _ => True) ask)
    (hv : v.Forsaken i frames) (h : Drops ask act s v) :
    act.Lands (fun u => u.phase ≠ .connected ∧ u.talk i = v.talk i ++ [.close i]) s := by
  obtain ⟨bound, hact⟩ := h
  have hdrop : (disconnect ask false).Lands (fun u => u.Fit (fun _ => True) ∧
      u.phase ≠ .connected ∧ u.talk i = v.talk i ++ [.close i]) v := by
    intro u hu
    have htalk := lands_leaving ha hv.fit false i u hu
    rw [leaving, if_pos hv.writesTo] at htalk
    obtain ⟨hfit, hp⟩ := apart_of_hangUp ha hv.fit hu
    exact ⟨hfit, hp, htalk⟩
  have hall := Lands.bind (f := fun _ => Session.drain ask bound) hdrop fun _ u _ hu => by
    have hnone : u.receiver? = none := by simp [receiver?, (hu.1.held.1 hu.2.1).2]
    exact lands_of_ok (drain_of_none ask hnone bound) hu
  exact lands_congr hact fun u hu => (hall u hu).2

/-! ### What a peer sends before it leaves -/

theorem forM_tell (events : List Event) (s : Session) :
    events.forM (tell : Event → Act Session Unit) s = .ok () (s.tellingAll events) := by
  induction events generalizing s with
  | nil => rfl
  | cons e events ih =>
    rw [tellingAll_cons, ← ih]
    rfl

theorem Bound.onReceiver (h : s.Bound i c) (g : Receiver → Receiver) (events : List Event) :
    ∃ t, onReceiver (some i) g events s = .ok () t ∧
      t.Bound i { c with receiver := g c.receiver } := by
  obtain ⟨hi, -⟩ := Array.getElem?_eq_some_iff.mp h.connection
  let g' : Connection → Connection := fun c => { c with receiver := g c.receiver }
  let t : Session :=
    { s with network := { s.network with connections := s.network.connections.modify i g' } }
  refine ⟨t.tellingAll events, ?_, h.changed g' rfl rfl rfl rfl⟩
  unfold Session.onReceiver
  rw [get_bind_apply, get_bind_apply,
    if_pos (show s.chosen (some i) < s.network.connections.size from hi)]
  exact (bind_of_ok rfl).trans (forM_tell events t)

/-- What happens to the receiver of a connection leaves the link bound to it. -/
theorem Bound.step (h : s.Bound i c) (request : Request) {g : Receiver → Receiver}
    {events : List Event} {a : Answer} (hr : Session.answer (perform 999) request =
      (Session.onReceiver (some i) g events >>= fun _ => pure a)) :
    (s.step (.ask request)).2.Bound i { c with receiver := g c.receiver } := by
  obtain ⟨t, ht, hbound⟩ := h.onReceiver g events
  rw [step_ask s request (hr ▸ bind_of_ok ht)]
  exact hbound

theorem Bound.close (h : s.Bound i c) :
    (s.step (.ask (.setClosing (some i)))).2.Bound i { c with closing := true } :=
  h.changed (fun c => { c with closing := true }) rfl rfl rfl rfl

/-- The peer sends all this on connection `i`, closes it, and the transport closes as well. -/
def peerCloses (i : Nat) (chunks : List (List UInt8)) : List Step :=
  chunks.map (fun bytes => .ask (.data bytes (some i))) ++
    [.ask (.endOfInput (some i)), .ask (.lose none (some i)), .ask (.setClosing (some i))]

theorem Bound.fed (chunks : List (List UInt8)) : ∀ {s : Session} {c : Connection}, s.Bound i c →
    (s.after (chunks.map fun bytes => .ask (.data bytes (some i)))).Bound i { c with
      receiver := { c.receiver with inbox := c.receiver.inbox.feed chunks.flatten } } := by
  induction chunks with
  | nil =>
    intro s c h
    simpa [after, Inbox.feed] using h
  | cons bytes chunks ih =>
    intro s c h
    have hrest := ih (h.step (.data bytes (some i)) rfl)
    simpa [after, Receiver.receive, Inbox.feed] using hrest

/-- What the peer sends is left on the connection when it is closed. -/
theorem forsaken_of_peerCloses (h : s.Bound i c) (he : c.receiver.error = none)
    {chunks : List (List UInt8)} {tail : List UInt8} (hp : Frame.IsPartial tail)
    (hb : c.receiver.inbox.bytes ++ chunks.flatten = frames.flatMap Frame.bytes ++ tail) :
    (s.after (peerCloses i chunks)).Forsaken i frames := by
  have hfed := h.fed chunks
  have hended := hfed.step (.endOfInput (some i)) rfl
  have hclosed := (hended.step (.lose none (some i)) rfl).close
  unfold peerCloses after
  rw [List.foldl_append]
  exact ⟨_, hclosed, rfl, rfl, he, tail, hp, hb⟩

/-- A connected link whose peer sends these frames and a part of another, in chunks of any size, and
closes the connection: the next tick, at any time, handles the frames in order, still connected,
until there is a sign of life to send. That is before the first of them if one is due, and else
after the first that asks for one; the tick drops the connection there, without a look at the
others, whatever the listeners ask for. It stays connected with all reports stored if there is
nothing to send. -/
theorem handled_until_ping (h : s.Bound i c) (he : c.receiver.error = none)
    {chunks : List (List UInt8)} {tail : List UInt8} (hp : Frame.IsPartial tail)
    (hb : c.receiver.inbox.bytes ++ chunks.flatten = frames.flatMap Frame.bytes ++ tail)
    (hf : ∀ f ∈ frames, f.Harmless) (now : Float) (depth : Nat) :
    let t := (s.after (peerCloses i chunks)).clocked now
    let heeded := t.finding.heeded frames
    (∃ v, Passes (perform depth) t.finding i frames t v) ∧
      (t.finding.reason i frames ≠ [] → (tick (perform depth)).Lands (fun u =>
        u.phase ≠ .connected ∧
          u.talk i = t.talk i ++ .looked i t.finding :: heeded.map (.handled i) ++
            (if t.finding = .gone then [] else [.unsent i .closed]) ++ [.close i]) t) ∧
      (heeded = frames ↔
        t.finding ≠ .silent ∧ ∀ f ∈ frames.dropLast, f.kind? ≠ some .pingAlive) := by
  intro t heeded
  have ht : t.Forsaken i frames := (forsaken_of_peerCloses h he hp hb).congr rfl rfl rfl rfl
  obtain ⟨v, rest, hv, hpasses⟩ := ht.tick (perform depth) hf
  refine ⟨⟨v, hpasses⟩, fun hr => ?_,
    Finding.heeded_eq_iff (ht.finding_eq_gone_iff fun f hm => (hf f hm).fits)⟩
  rw [← hpasses.talk (perform depth) hr]
  exact lands_of_drops (perform depth) (works_perform depth) hv (hpasses.drops hr)

/-- A frame that asks for a sign of life, and a report behind it that is not handled. -/
theorem report_lost_of_ping :
    let s := (start {} {} .empty [⟨.opens, .int 0, .none, [], false, []⟩] none).after
      [.ask (.connect "127.0.0.1" (.int 27099)), .pass (.int 0)]
    let chunks : List (List UInt8) :=
      [[0, 0, 0, 0, 32, 13, 0], [0, 0, 0, 5, 0, 0, 0, 97, 46, 97, 115, 0, 0, 0, 0, 0, 0, 0]]
    let frames : List Frame := [⟨32, []⟩, ⟨0, [5, 0, 0, 0, 97, 46, 97, 115, 0, 0, 0, 0, 0]⟩]
    let t := (s.after (peerCloses 0 chunks)).clocked 1000
    t.finding = .calm ∧ t.finding.heeded frames = [⟨32, []⟩] ∧
      (∃ v, Passes (perform maxDepth) t.finding 0 frames t v) ∧
      (tick (perform maxDepth)).Lands (fun u => u.phase ≠ .connected ∧
        u.talk 0 = [.looked 0 .calm, .handled 0 ⟨32, []⟩, .unsent 0 .closed, .close 0]) t := by
  intro s chunks frames t
  have hbound : s.Bound 0 ⟨⟨.empty, true, false, none⟩, false, none⟩ := {
    connected := by decide +kernel
    writesTo := by decide +kernel
    readsFrom := by decide +kernel
    connection := by decide +kernel }
  have hharmless : ∀ f ∈ frames, f.Harmless := by
    intro f hf
    simp only [frames, List.mem_cons, List.not_mem_nil, or_false] at hf
    rcases hf with rfl | rfl
    · exact ⟨by unfold Frame.Fits; decide, by decide, nofun⟩
    · exact ⟨by unfold Frame.Fits; decide, by decide, fun _ => ⟨_, rfl⟩⟩
  have hpartial : Frame.IsPartial [0, 0] := .inl (by decide)
  have hbytes : Inbox.empty.bytes ++ chunks.flatten = frames.flatMap Frame.bytes ++ [0, 0] := rfl
  have hcalm : t.finding = .calm := by decide +kernel
  have hheeded : t.finding.heeded frames = [⟨32, []⟩] := by
    rw [hcalm]
    rfl
  have hreason : t.finding.reason 0 frames = unanswered 0 := by
    rw [hcalm]
    rfl
  have htalk : t.talk 0 = [] := List.isEmpty_iff.mp (by decide +kernel)
  obtain ⟨hpasses, hlands, -⟩ :=
    handled_until_ping hbound rfl hpartial hbytes hharmless 1000 maxDepth
  refine ⟨hcalm, hheeded, hpasses, fun u hu => ?_⟩
  obtain ⟨hphase, hsaid⟩ := hlands (hreason ▸ nofun) u hu
  rw [hcalm, htalk] at hsaid
  exact ⟨hphase, hsaid⟩

end Session
end DiagnosticWatch
