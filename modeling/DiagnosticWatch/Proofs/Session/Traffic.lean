/-
# Traffic on a connection

When there was traffic last can be read off a trace whose readings of the clock
are known: the link has connected, a frame was handled, or a tick found silence
and is about to send a sign of life. A tick finds silence exactly if it has
lasted longer than the interval (`Pulse.next?`), and since the link connected
all this is about one connection. From one session to another the events are in
time if reading them so leads from what the first one has noted of the traffic
to what the other has (`Session.InTime`).

Key definitions: `Event.isPulse`, `Pulse`, `Pulse.next?`, `Session.Beats`, `Session.InTime`.
Key theorems: `Session.InTime.of_idle`, `Session.inTime_tookOut`,
`Session.inTime_connected`, `Session.inTime_silent`.
-/
import DiagnosticWatch.Proofs.Session.Calls

namespace DiagnosticWatch

/-- Whether an event has to do with the traffic on a connection. -/
def Event.isPulse : Event → Bool
  | .moved _ .connected | .handled .. | .looked _ .silent | .looked _ .calm => true
  | _ => false

/-- What is noted of the traffic. -/
structure Pulse where
  /-- When there was traffic last. -/
  since : Float
  /-- The connection that it was on, if there was any since the link connected. -/
  source : Option Nat

namespace Pulse

/-- Whether there was traffic on no other connection since the link connected. -/
def isOf (p : Pulse) (i : Nat) : Bool :=
  p.source.all (· = i)

/-- What is noted after an event at the reading `now`; nothing if the event cannot come then. -/
def next? (interval : Number) (now : Float) (p : Pulse) : Event → Option Pulse
  | .moved _ .connected => some ⟨now, none⟩
  | .handled i _ => if p.isOf i then some ⟨now, i⟩ else none
  | .looked i .silent =>
    if p.isOf i && interval.below (now - p.since) then some ⟨now, i⟩ else none
  | .looked i .calm =>
    if p.isOf i && !interval.below (now - p.since) then some ⟨p.since, i⟩ else none
  | _ => some p

variable {interval : Number} {now : Float} {p q : Pulse} {e : Event}

theorem next?_of_idle (h : e.isPulse = false) : p.next? interval now e = some p := by
  cases e with
  | moved old new => cases new <;> first | rfl | cases h
  | looked i finding => cases finding <;> first | rfl | cases h
  | handled => cases h
  | _ => rfl

theorem foldlM_of_idle {events : List Event} (h : ∀ e ∈ events, e.isPulse = false) :
    events.foldlM (next? interval now) p = some p := by
  induction events with
  | nil => rfl
  | cons e events ih =>
    rw [List.forall_mem_cons] at h
    rw [List.foldlM_cons, next?_of_idle h.1, Option.bind_eq_bind, Option.bind_some, ih h.2]

end Pulse

/-- What a link has to do with the traffic. -/
def Link.rhythm (l : Link) : Settings × Float × Option Nat × Option Nat :=
  (l.settings, l.lastTraffic, l.writesTo, l.readsFrom)

namespace Session

variable {s t u : Session} {p q : Pulse} {i : Nat} {e : Event}

/-- The session has noted this of the traffic. -/
structure Beats (p : Pulse) (s : Session) : Prop where
  since : s.link.lastTraffic = p.since
  paired : s.link.writesTo = s.link.readsFrom
  source : ∀ i, s.link.readsFrom = some i → p.isOf i = true

theorem Beats.congr (h : s.Beats p) (rhythm : t.link.rhythm = s.link.rhythm) : t.Beats p := by
  simp only [Link.rhythm, Prod.mk.injEq] at rhythm
  obtain ⟨-, traffic, writes, reads⟩ := rhythm
  exact ⟨traffic.trans h.since, by rw [writes, reads, h.paired], by rw [reads]; exact h.source⟩

/-- From `s` to `t` the clock and the settings stay, and what is told is in time. -/
structure InTime (s t : Session) : Prop where
  now : t.loop.now = s.loop.now
  settings : t.link.settings = s.link.settings
  told : ∃ more, t.trace.events = s.trace.events ++ more ∧ ∀ p, s.Beats p →
    ∃ q, more.foldlM (Pulse.next? s.link.settings.keepAliveInterval s.loop.now) p = some q ∧
      t.Beats q

instance : IsPreorder Session InTime where
  refl s := ⟨rfl, rfl, [], by simp, fun p hp => ⟨p, rfl, hp⟩⟩
  trans s t u h h' := by
    obtain ⟨more, hm, hp⟩ := h.told
    obtain ⟨more', hm', hp'⟩ := h'.told
    refine ⟨h'.now.trans h.now, h'.settings.trans h.settings, more ++ more', ?_, fun p hs => ?_⟩
    · rw [hm', hm, List.append_assoc]
    · obtain ⟨q, hq, ht⟩ := hp p hs
      obtain ⟨r, hr, hu⟩ := hp' q ht
      rw [h.settings, h.now] at hr
      exact ⟨r, by rw [List.foldlM_append, hq]; exact hr, hu⟩

/-- Nothing is told that has to do with the traffic. -/
theorem InTime.of_idle (more : List Event) (now : t.loop.now = s.loop.now)
    (rhythm : t.link.rhythm = s.link.rhythm)
    (trace : t.trace.latestFirst = more ++ s.trace.latestFirst)
    (idle : ∀ e ∈ more, e.isPulse = false) : InTime s t := by
  have hsettings : t.link.settings = s.link.settings := congrArg Prod.fst rhythm
  refine ⟨now, hsettings, more.reverse, ?_, fun p hp => ⟨p, ?_, hp.congr rhythm⟩⟩
  · rw [Trace.events, trace, List.reverse_append, Trace.events]
  · exact Pulse.foldlM_of_idle fun e he => idle e (List.mem_reverse.mp he)

/-- One event is told that has to do with the traffic. -/
theorem InTime.of_pulse {e : Event} (now : t.loop.now = s.loop.now)
    (settings : t.link.settings = s.link.settings) (trace : t.trace = s.trace.record e)
    (beats : ∀ p, s.Beats p → ∃ q, p.next? s.link.settings.keepAliveInterval s.loop.now e = some q ∧
      t.Beats q) : InTime s t := by
  refine ⟨now, settings, [e], ?_, fun p hp => ?_⟩
  · rw [trace, Trace.events, Trace.events, Trace.record, List.reverse_cons]
  · obtain ⟨q, hq, ht⟩ := beats p hp
    exact ⟨q, by rw [List.foldlM_cons, hq]; rfl, ht⟩

/-- The link lets go of its connection. -/
theorem inTime_letGo (s : Session) :
    InTime s { s with link := { s.link with writesTo := none, readsFrom := none } } := by
  refine ⟨rfl, rfl, [], by simp, fun p hp => ⟨p, rfl, hp.since, rfl, nofun⟩⟩

/-- A frame of the connection that is read from comes to be handled. -/
theorem inTime_tookOut (h : s.link.readsFrom = some i) (f : Frame) (rest : Inbox) :
    InTime s (s.tookOut i f rest) := by
  refine .of_pulse rfl rfl rfl fun p hp => ⟨⟨s.loop.now, i⟩, ?_, rfl, hp.paired, fun j hj => ?_⟩
  · simp [Pulse.next?, hp.source i h]
  · cases h.symm.trans hj
    simp [Pulse.isOf]

/-- The link connects. -/
theorem inTime_connected (i : Nat) (s : Session) :
    InTime s ((s.holding i).movedTo .connected) :=
  .of_pulse (e := .moved s.phase .connected) rfl rfl rfl fun _ _ =>
    ⟨⟨s.loop.now, none⟩, rfl, rfl, rfl, fun _ _ => rfl⟩

/-- A tick finds silence on the connection, and notes the time. -/
theorem inTime_silent (h : s.link.writesTo = some i)
    (hs : s.link.settings.keepAliveInterval.below (s.loop.now - s.link.lastTraffic) = true) :
    InTime s { s.telling (.looked i .silent) with
      link := { s.link with lastTraffic := s.loop.now } } := by
  refine .of_pulse rfl rfl rfl fun p hp => ⟨⟨s.loop.now, i⟩, ?_, rfl, hp.paired, fun j hj => ?_⟩
  · rw [hp.since] at hs
    simp [Pulse.next?, hp.source i (hp.paired ▸ h), hs]
  · cases (hp.paired.symm.trans h).symm.trans hj
    simp [Pulse.isOf]

/-- A tick finds no silence on the connection. -/
theorem inTime_calm (h : s.link.writesTo = some i)
    (hs : s.link.settings.keepAliveInterval.below (s.loop.now - s.link.lastTraffic) = false) :
    InTime s (s.telling (.looked i .calm)) := by
  refine .of_pulse rfl rfl rfl fun p hp => ⟨⟨p.since, i⟩, ?_, hp.since, hp.paired, fun j hj => ?_⟩
  · rw [hp.since] at hs
    simp [Pulse.next?, hp.source i (hp.paired ▸ h), hs]
  · cases (hp.paired.symm.trans h).symm.trans hj
    simp [Pulse.isOf]

/-- A session that reads from another connection than it writes to has noted nothing. -/
theorem InTime.of_unpaired (h : s.link.writesTo ≠ s.link.readsFrom) (now : t.loop.now = s.loop.now)
    (settings : t.link.settings = s.link.settings) (trace : t.trace = s.trace) : InTime s t :=
  ⟨now, settings, [], by rw [trace, List.append_nil], fun _ hp => absurd hp.paired h⟩

end Session
end DiagnosticWatch
