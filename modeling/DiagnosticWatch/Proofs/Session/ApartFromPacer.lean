/-
# What the link does aside from the pacer

The acts of the link leave the pacer and the clock alone, tell nothing that the
pacer tells, note the traffic in time, and of what a connection has received they
only take frames out (`Apart`). But for the setting out to connect, which may be
refused, they do not take the link to a phase other than `disconnected` either
(`Aside`).

Listeners run in the middle of an act and may ask for anything. So a relation
that overlooks what the link does holds from the begin to the end of an act of
the link if it holds so for the requests that listeners make
(`keeps_answer_aside`). What the requests mean in which the pacer or the peer acts,
or somebody connects, is up to the relation. Of the scripts in the session only
those of the listeners matter (`Attended`).

Key definitions: `Event.isPaced`, `Event.isApart`, `Receiver.Reads`, `Session.Apart`,
`Session.Aside`, `Session.Overlooks`, `Session.Keeps`, `Request.isAside`.
Key theorems: `Session.keeps_disconnect`, `Session.keeps_connect`,
`Session.keeps_tick`, `Session.keeps_answer_aside`.
-/
import DiagnosticWatch.Proofs.Session.Traffic
import DiagnosticWatch.Proofs.Wire.Streaming

namespace DiagnosticWatch

/-- Whether an event is one that the pacer tells. -/
def Event.isPaced : Event → Bool
  | .pacing | .upkept _ | .probe .. | .retry .. | .wait .. => true
  | _ => false

/-- The step that is refused. -/
def Event.refusal? : Event → Option (Phase × Phase)
  | .refused old new => some (old, new)
  | _ => none

/-- Whether an event is none that the pacer tells, and no refusal of a step. -/
def Event.isApart : Event → Bool
  | .refused .. => false
  | e => !e.isPaced

/-- Whether an event is none of these, and has nothing to do with the traffic. -/
def Event.isIncidental (e : Event) : Bool :=
  e.isApart && !e.isPulse

theorem Event.isApart_of_isIncidental {e : Event} (h : e.isIncidental = true) : e.isApart = true :=
  (Bool.and_eq_true_iff.mp h).1

theorem Event.not_isPulse_of_isIncidental {e : Event} (h : e.isIncidental = true) :
    e.isPulse = false := by
  simpa using (Bool.and_eq_true_iff.mp h).2

theorem Event.isIncidental_of_isSaid {e : Event} (h : e.isSaid = true) : e.isIncidental = true := by
  cases e with
  | looked i finding => cases finding <;> first | rfl | cases h
  | moved old new => cases h
  | _ => first | rfl | cases h

theorem Event.unpaced_of_isApart {e : Event} (h : e.isApart = true) : e.isPaced = false := by
  cases e <;> first | rfl | cases h

theorem Event.refusal?_of_isApart {e : Event} (h : e.isApart = true) : e.refusal? = none := by
  cases e <;> first | rfl | cases h

/-- To what a look finds nothing in the later events adds nothing. -/
theorem filterMap_of_untold {β : Type} {f : Event → Option β} {later earlier : List Event}
    (h : ∀ e ∈ later, f e = none) : (later ++ earlier).filterMap f = earlier.filterMap f := by
  rw [List.filterMap_append, List.filterMap_eq_nil_iff.mpr h, List.nil_append]

/-- Whether a request is answered aside from the pacer and the peer, and makes nobody
connect. -/
def Request.isAside : Request → Bool
  | .data .. | .endOfInput _ | .lose .. | .connect .. | .connectUnlooped .. | .paceTick
  | .paceTickUnlooped | .start | .cancelTicker => false
  | _ => true

/-- What a receiver has received is read: frames are taken out, and the peer has not left
meanwhile. -/
structure Receiver.Reads (r r' : Receiver) : Prop where
  peerClosed : r'.peerClosed = r.peerClosed
  error : r'.error = r.error
  size : r'.inbox.size ≤ r.inbox.size
  whole : r'.inbox.hasFrame = true → r.inbox.hasFrame = true

theorem Receiver.Reads.refl (r : Receiver) : r.Reads r :=
  ⟨rfl, rfl, Nat.le_refl _, id⟩

theorem Receiver.Reads.trans {r r' r'' : Receiver} (h : r.Reads r') (h' : r'.Reads r'') :
    r.Reads r'' :=
  ⟨h'.peerClosed.trans h.peerClosed, h'.error.trans h.error, Nat.le_trans h'.size h.size,
    fun hw => h.whole (h'.whole hw)⟩

/-- The next frame is taken out. -/
theorem Receiver.reads_of_next {r : Receiver} {frame : Frame} {rest : Inbox}
    (h : r.inbox.next = (.ok (some frame), rest)) : r.Reads { r with inbox := rest } :=
  ⟨rfl, rfl, Nat.le_of_lt (Inbox.size_lt_of_next h), fun _ => Inbox.hasFrame_iff.mpr ⟨frame, rest, h⟩⟩

namespace Session

open Act

variable {A : Request → Prop} {R : Session → Session → Prop} {s t u : Session} {α β : Type}
  {ask : Request → Act Session Answer}

/-- The steps that have been refused so far, the latest first. -/
def refusals (s : Session) : List (Phase × Phase) :=
  s.trace.latestFirst.filterMap Event.refusal?

/-- What every connection has received is only read. -/
def OnlyReads (s t : Session) : Prop :=
  ∀ (i : Nat) (c : Connection), s.network.connections[i]? = some c →
    ∃ c', t.network.connections[i]? = some c' ∧ c.receiver.Reads c'.receiver

/-- From `s` to `t` the pacer and the clock stay, nothing is told that the pacer tells, no step
is refused, the traffic is noted in time, and what was received is only read. -/
structure Apart (s t : Session) : Prop where
  pacer : t.pacer = s.pacer
  inTime : InTime s t
  tells : ∃ more, t.trace.latestFirst = more ++ s.trace.latestFirst ∧
    ∀ e ∈ more, e.isApart = true
  reads : OnlyReads s t

/-- Besides, no listener comes in whose script is not within `A`, the link stays in its phase
and with its connection or becomes disconnected, and no dial is made. -/
structure Aside (A : Request → Prop) (s t : Session) : Prop extends Apart s t where
  attended : s.Attended A → t.Attended A
  phase : (t.phase = s.phase ∧ t.link.readsFrom = s.link.readsFrom) ∨ t.phase = .disconnected
  dials : t.network.dials.size = s.network.dials.size

theorem Apart.now (h : Apart s t) : t.loop.now = s.loop.now :=
  h.inTime.now

theorem Apart.unpaced (h : Apart s t) : ∃ more,
    t.trace.latestFirst = more ++ s.trace.latestFirst ∧ ∀ e ∈ more, e.isPaced = false := by
  obtain ⟨more, hm, hall⟩ := h.tells
  exact ⟨more, hm, fun e he => Event.unpaced_of_isApart (hall e he)⟩

/-- No step is refused. -/
theorem Apart.refusals (h : Apart s t) : t.refusals = s.refusals := by
  obtain ⟨more, hm, hall⟩ := h.tells
  unfold Session.refusals
  rw [hm]
  exact filterMap_of_untold fun e he => Event.refusal?_of_isApart (hall e he)

theorem onlyReads_of_eq (h : t.network.connections = s.network.connections) : OnlyReads s t :=
  fun i c hc => ⟨c, by rw [h, hc], .refl _⟩

theorem OnlyReads.trans (h : OnlyReads s t) (h' : OnlyReads t u) : OnlyReads s u := by
  intro i c hc
  obtain ⟨c', hc', hr⟩ := h i c hc
  obtain ⟨c'', hc'', hr'⟩ := h' i c' hc'
  exact ⟨c'', hc'', hr.trans hr'⟩

theorem onlyReads_modify {i : Nat} {f : Connection → Connection}
    (h : ∀ c, s.network.connections[i]? = some c → c.receiver.Reads (f c).receiver)
    (ht : t.network.connections = s.network.connections.modify i f) : OnlyReads s t := by
  intro j c hc
  rw [ht, Array.getElem?_modify, hc]
  by_cases hij : i = j
  · subst hij
    exact ⟨f c, by simp, h c hc⟩
  · exact ⟨c, by simp [hij], .refl _⟩

/-- Nothing is told, and the connections stay. -/
theorem Apart.of_still (pacer : t.pacer = s.pacer) (now : t.loop.now = s.loop.now)
    (trace : t.trace = s.trace) (rhythm : t.link.rhythm = s.link.rhythm)
    (connections : t.network.connections = s.network.connections) : Apart s t := by
  have htrace : t.trace.latestFirst = [] ++ s.trace.latestFirst := by rw [trace]; rfl
  exact ⟨pacer, .of_idle [] now rhythm htrace nofun, ⟨[], htrace, nofun⟩, onlyReads_of_eq connections⟩

instance : IsPreorder Session Apart where
  refl _ := .of_still rfl rfl rfl rfl rfl
  trans s t u h h' := by
    obtain ⟨more, hm, hu⟩ := h.tells
    obtain ⟨more', hm', hu'⟩ := h'.tells
    refine ⟨h'.pacer.trans h.pacer, trans_of InTime h.inTime h'.inTime, ⟨more' ++ more, ?_, ?_⟩,
      h.reads.trans h'.reads⟩
    · rw [hm', hm, List.append_assoc]
    · exact fun e he => (List.mem_append.mp he).elim (hu' e) (hu e)

/-- One event is told, and the connections stay. -/
theorem Apart.of_event {e : Event} (h : e.isIncidental = true) (pacer : t.pacer = s.pacer)
    (now : t.loop.now = s.loop.now) (trace : t.trace = s.trace.record e)
    (rhythm : t.link.rhythm = s.link.rhythm)
    (connections : t.network.connections = s.network.connections) : Apart s t := by
  have htrace : t.trace.latestFirst = [e] ++ s.trace.latestFirst := by rw [trace]; rfl
  have hpulse := Event.not_isPulse_of_isIncidental h
  have hapart := Event.isApart_of_isIncidental h
  exact ⟨pacer, .of_idle [e] now rhythm htrace (by simpa using hpulse),
    ⟨[e], htrace, by simpa using hapart⟩, onlyReads_of_eq connections⟩

theorem apart_movedTo (target : Phase) (h : target ≠ .connected) (s : Session) :
    Apart s (s.movedTo target) := by
  refine .of_event (e := .moved s.phase target) ?_ rfl rfl rfl rfl rfl
  cases target <;> first | rfl | exact absurd rfl h

theorem apart_closed (i : Nat) (s : Session) : Apart s (s.closed i) :=
  ⟨rfl, .of_idle [.close i] rfl rfl rfl (by simp [Event.isPulse]),
    ⟨[.close i], rfl, by simp [Event.isApart, Event.isPaced]⟩,
    onlyReads_modify (f := fun c => { c with closing := true }) (fun _ _ => .refl _) rfl⟩

theorem apart_parted (s : Session) : Apart s s.parted := by
  have hlet : ∀ v : Session,
      Apart v { v with link := { v.link with writesTo := none, readsFrom := none } } := fun v =>
    ⟨rfl, inTime_letGo v, ⟨[], rfl, nofun⟩, onlyReads_of_eq rfl⟩
  unfold parted closedHeld
  split
  · exact trans_of Apart (apart_closed _ s) (hlet _)
  · exact hlet s

theorem apart_left (s : Session) : Apart s s.left := by
  unfold left
  split
  · exact trans_of Apart (apart_parted s) (apart_movedTo .disconnected nofun _)
  · exact apart_parted s

/-- Nothing is told, and the connections and the phase stay. -/
theorem Aside.of_still (attended : s.Attended A → t.Attended A) (pacer : t.pacer = s.pacer)
    (now : t.loop.now = s.loop.now) (trace : t.trace = s.trace) (phase : t.phase = s.phase)
    (rhythm : t.link.rhythm = s.link.rhythm)
    (connections : t.network.connections = s.network.connections)
    (dials : t.network.dials.size = s.network.dials.size) : Aside A s t := by
  have hreads : t.link.readsFrom = s.link.readsFrom := congrArg (·.2.2.2) rhythm
  exact ⟨.of_still pacer now trace rhythm connections, attended, .inl ⟨phase, hreads⟩, dials⟩

theorem aside_record (s : Session) {e : Event} (h : e.isIncidental = true) :
    Aside A s { s with trace := s.trace.record e } :=
  ⟨.of_event h rfl rfl rfl rfl rfl, fun hs => { hs with }, .inl ⟨rfl, rfl⟩, rfl⟩

theorem aside_onConnection (s : Session) (i : Nat) {f : Connection → Connection}
    (h : ∀ c, s.network.connections[i]? = some c → c.receiver.Reads (f c).receiver) :
    Aside A s { s with network := { s.network with
      connections := s.network.connections.modify i f } } :=
  ⟨⟨rfl, .of_idle [] rfl rfl rfl nofun, ⟨[], rfl, nofun⟩, onlyReads_modify h rfl⟩,
    fun hs => { hs with }, .inl ⟨rfl, rfl⟩, rfl⟩

theorem aside_tookOut {c : Connection} {f : Frame} {rest : Inbox} {i : Nat}
    (hi : s.link.readsFrom = some i) (hc : s.network.connections[i]? = some c)
    (hn : c.receiver.inbox.next = (.ok (some f), rest)) : Aside A s (s.tookOut i f rest) := by
  let taken (c : Connection) : Connection := { c with receiver := { c.receiver with inbox := rest } }
  have htaken : ∀ c', s.network.connections[i]? = some c' →
      c'.receiver.Reads (taken c').receiver := fun c' hc' => by
    cases hc.symm.trans hc'
    exact Receiver.reads_of_next hn
  exact ⟨⟨rfl, inTime_tookOut hi f rest,
    ⟨[.handled i f], rfl, by simp [Event.isApart, Event.isPaced]⟩, onlyReads_modify htaken rfl⟩,
    fun hs => { hs with }, .inl ⟨rfl, rfl⟩, rfl⟩

theorem aside_left (s : Session) : Aside A s s.left := by
  refine ⟨apart_left s, Attended.left, .inr (phase_left s), ?_⟩
  unfold left parted closedHeld
  split <;> split <;> rfl

theorem aside_forgotten (s : Session) : Aside A s s.forgotten := by
  refine ⟨?_, Attended.forgotten, .inl ⟨phase_forgotten s, ?_⟩, ?_⟩
  · unfold forgotten
    split
    · exact .of_still rfl rfl rfl rfl rfl
    · exact .of_event (e := .signal []) rfl rfl rfl rfl rfl rfl
  · unfold forgotten
    split <;> rfl
  · unfold forgotten
    split <;> rfl

theorem aside_marked (s : Session) : Aside A s s.marked :=
  .of_still Attended.marked rfl rfl rfl rfl rfl rfl rfl

theorem aside_signalled (s : Session) : Aside A s s.signalled :=
  ⟨.of_event (e := .signal s.link.store.reports) rfl rfl rfl rfl rfl rfl, fun hs => { hs with },
    .inl ⟨rfl, rfl⟩, rfl⟩

theorem aside_listening (hs : s.Attended A) (known : List (Listener Request))
    {life signal : List (Listener Request)} (hl : Admitted A s.link.life.listeners life)
    (hg : Admitted A s.link.signal.listeners signal) : Aside A s (s.listening known life signal) :=
  .of_still (fun _ => ⟨fun l hm => (hl l hm).elim (hs.life l) id,
    fun l hm => (hg l hm).elim (hs.signal l) id⟩) rfl rfl rfl rfl rfl rfl rfl

theorem now_of_callOff (h : callOff s = .ok () t) : t.loop.now = s.loop.now := by
  unfold callOff at h
  rw [get_bind_apply] at h
  cases hd : s.link.dial with
  | none =>
    rw [hd] at h
    cases h
    rfl
  | some d =>
    obtain ⟨v, hv, hr⟩ := cancelDial_ok d s
    rw [hd] at h
    cases (bind_of_ok hv).symm.trans h
    obtain rfl | ⟨dial, wake, asked, jobs, -, -, rfl⟩ := hr <;> rfl

theorem aside_callOff (h : callOff s = .ok () t) : Aside A s t := by
  obtain ⟨v, hv, link, trace, connections, pacer⟩ := callOff_keeps s
  obtain ⟨v', hv', -, -, dials⟩ := callOff_ok s
  cases hv.symm.trans h
  cases hv.symm.trans hv'
  have hattended : s.Attended A → t.Attended A := fun hs =>
    hs.congr (by rw [link]) (by rw [link])
  exact .of_still hattended pacer (now_of_callOff hv) trace (by rw [phase, link]; rfl)
    (by rw [link]; rfl) connections dials

/-- Whatever the link does at once, but for setting out, is aside from the pacer. -/
theorem Stroke.aside (h : Stroke s t) : Aside A s t := by
  cases h with
  | tells he => exact aside_record s (Event.isIncidental_of_isSaid he)
  | callsOff h => exact aside_callOff h
  | leaves => exact aside_left s
  | forgets => exact aside_forgotten s
  | signals => exact aside_signalled s
  | stores => exact .of_still (fun hs => { hs with }) rfl rfl rfl rfl rfl rfl rfl
  | marks => exact aside_marked s
  | takesOut hi hc hn => exact aside_tookOut hi hc hn
  | @silent i hw hs =>
    exact ⟨⟨rfl, inTime_silent hw hs,
      ⟨[.looked i .silent], rfl, by simp [Event.isApart, Event.isPaced]⟩,
      onlyReads_of_eq rfl⟩, fun ha => { ha with }, .inl ⟨rfl, rfl⟩, rfl⟩
  | unheld hw hr =>
    exact ⟨⟨rfl, .of_unpaired (hw ▸ hr.symm) rfl rfl rfl, ⟨[], rfl, nofun⟩, onlyReads_of_eq rfl⟩,
      fun ha => { ha with }, .inl ⟨rfl, rfl⟩, rfl⟩
  | @calm i hw hs =>
    exact ⟨⟨rfl, inTime_calm hw hs,
      ⟨[.looked i .calm], rfl, by simp [Event.isApart, Event.isPaced]⟩,
      onlyReads_of_eq rfl⟩, fun ha => { ha with }, .inl ⟨rfl, rfl⟩, rfl⟩

/-! ### Relations that overlook what the link does -/

/-- The relation holds whatever the link does, but for the setting out to connect. -/
def Overlooks (A : Request → Prop) (R : Session → Session → Prop) : Prop :=
  ∀ s t, Aside A s t → R s t

/-- It holds also when the link sets out, and when that is refused. -/
structure OverlooksSetOut (R : Session → Session → Prop) : Prop where
  sets : ∀ s : Session, s.phase = .disconnected → R s (s.movedTo .connecting)
  refuses : ∀ s : Session, R s (s.telling (.refused s.phase .connecting))
  dials : ∀ (s : Session) (host : String) (port : Number), R s (s.dialling host port)

theorem overlooks_of_apart (h : ∀ {s t}, Apart s t → R s t) : Overlooks A R :=
  fun _ _ ha => h ha.toApart

/-- From a session whose listeners have scripts within `A` one comes to another such, and the
relation holds. -/
def Under (A : Request → Prop) (R : Session → Session → Prop) (s t : Session) : Prop :=
  s.Attended A → t.Attended A ∧ R s t

instance [IsPreorder Session R] : IsPreorder Session (Under A R) where
  refl s hs := ⟨hs, refl_of R s⟩
  trans _ _ _ h h' hs := ⟨(h' (h hs).1).1, trans_of R (h hs).2 (h' (h hs).1).2⟩

/-- The relation holds from wherever the act begins to where it ends. -/
def Keeps (A : Request → Prop) (R : Session → Session → Prop) (act : Act Session α) : Prop :=
  ∀ s, Leads (Under A R) act s

/-- The listeners of `t` have scripts within `A`, and the relation holds from `w`. -/
structure KeptFrom (A : Request → Prop) (R : Session → Session → Prop) (w t : Session) : Prop where
  attended : t.Attended A
  holds : R w t

theorem under_of_aside (ho : Overlooks A R) (h : Aside A s t) : Under A R s t :=
  fun hs => ⟨h.attended hs, ho s t h⟩

theorem keeps_log (ho : Overlooks A R) (level : Level) (text : String) :
    Keeps A R (log level text : Act Session Unit) :=
  fun s => leads_of_ok (tell_apply _ s) (under_of_aside ho (aside_record s rfl))

section Acts

variable [IsPreorder Session R]

theorem KeptFrom.under {w : Session} (hs : KeptFrom A R w s) (h : Under A R s t) :
    KeptFrom A R w t :=
  ⟨(h hs.attended).1, trans_of R hs.holds (h hs.attended).2⟩

theorem leads_of_kept {act : Act Session α}
    (h : Preserves (KeptFrom A R s) (Ordinarily (KeptFrom A R s)) act s) : Leads (Under A R) act s :=
  fun _ ht hs =>
    have hkept := h.ends (fun _ _ he hq => hq he) ⟨hs, refl_of R s⟩ ht
    ⟨hkept.attended, hkept.holds⟩

theorem preserves_of_leads {act : Act Session α} (h : Leads (Under A R) act s) (w : Session) :
    Preserves (KeptFrom A R w) (Ordinarily (KeptFrom A R w)) act s :=
  fun hs => ⟨fun _ t ht => hs.under (h t (ends_of_ok ht)),
    fun e t ht he => hs.under (h t (.inr ⟨e, he, ht⟩))⟩

/-- To keep a relation is to go on with it wherever it holds from. -/
theorem keeps_iff {act : Act Session α} : Keeps A R act ↔
    ∀ w s, Preserves (KeptFrom A R w) (Ordinarily (KeptFrom A R w)) act s :=
  ⟨fun h w s => preserves_of_leads (h s) w, fun h s => leads_of_kept (h s s)⟩

theorem Keeps.pure (a : α) : Keeps A R (Pure.pure a : Act Session α) :=
  fun s => Leads.pure a s

theorem Keeps.throw (e : Fault) : Keeps A R (MonadExcept.throw e : Act Session α) :=
  fun s => Leads.throw e s

theorem Keeps.bind {x : Act Session α} {f : α → Act Session β} (hx : Keeps A R x)
    (hf : ∀ a, Keeps A R (f a)) : Keeps A R (x >>= f) :=
  fun s => Leads.bind (hx s) fun a v _ _ => hf a v

theorem Keeps.rescue {catches : Fault → Bool} (hc : ∀ e, catches e = true → e.isOrdinary = true)
    {act : Act Session α} {handle : Fault → Act Session α} (hx : Keeps A R act)
    (hh : ∀ e, Keeps A R (handle e)) : Keeps A R (act.rescue catches handle) :=
  fun s => Leads.rescue hc (hx s) fun e v _ _ _ => hh e v

/-- What the peer does changes the connections, and is logged. -/
theorem leads_ofPeer (hreceive : ∀ (s : Session) (i : Nat) (f : Connection → Connection),
      R s { s with network := { s.network with connections := s.network.connections.modify i f } })
    (hlog : ∀ (s : Session) (level : Level) (text : String), R s (s.telling (.log level text)))
    {request : Request} (h : request.isPeers = true) (s : Session) :
    Leads R (answer ask request) s :=
  leads_of_preserves (preserves_ofPeer (fun {v} i _ hv => trans_of R hv (hreceive v i _))
    (fun {v} level text hv => trans_of R hv (hlog v level text)) h s)

section Asks

variable (ho : Overlooks A R) (ha : ∀ q, Request.Within A q → Keeps A R (ask q))
include ho ha

/-! ### The link -/

theorem outlasts_kept (w : Session) :
    Outlasts A (KeptFrom A R w) (Ordinarily (KeptFrom A R w)) ask where
  stroke h hs := hs.under (under_of_aside ho h.aside)
  attended hs := hs.attended
  raised _ hs _ := hs
  caught he hs := hs he
  asks q hq := keeps_iff.mp (ha q hq) w

/-- What a script asks may also be of another kind than what listeners ask. -/
theorem keeps_script {B : Request → Prop} (hb : ∀ q, Request.Within B q → Keeps A R (ask q))
    {script : List (Reaction Request)} (h : Script.Within B script) :
    Keeps A R (Script.run Request.name ask script) :=
  keeps_iff.mpr fun w =>
    preserves_play (outlasts_kept ho ha w).attends (fun q hq => keeps_iff.mp (hb q hq) w) h

theorem leads_tellState_aside (old new : Phase) (s : Session) :
    Leads (Under A R) (tellState ask old new s.link.life.listeners) s :=
  leads_of_kept (preserves_tellState (outlasts_kept ho ha s).attends old new s)

theorem keeps_poll : Keeps A R (poll ask) :=
  keeps_iff.mpr fun w => (outlasts_kept ho ha w).poll

theorem keeps_takeLeave : Keeps A R takeLeave :=
  keeps_iff.mpr fun w => preserves_takeLeave (outlasts_kept ho ha w).speaks

/-- What the link does when it has left its connection. -/
theorem leads_left (s : Session) :
    Leads (Under A R) (sayGoodbye ask s.phase s.link.life.listeners >>= fun _ => forget ask)
      s.left :=
  leads_of_kept (preserves_afterLeaving (outlasts_kept ho ha s.left) s)

theorem keeps_disconnect (notify : Bool) : Keeps A R (disconnect ask notify) :=
  keeps_iff.mpr fun w => preserves_disconnect (outlasts_kept ho ha w) notify

theorem keeps_connect (hout : OverlooksSetOut R) (host : String) (port : Number) :
    Keeps A R (connect ask host port) := by
  refine keeps_iff.mpr fun w => preserves_connect (outlasts_kept ho ha w) ?_
  exact {
    sets := fun {v} hp hv => ⟨{ hv.attended with }, trans_of R hv.holds (hout.sets v hp)⟩
    refuses := fun {v} hv _ => ⟨{ hv.attended with }, trans_of R hv.holds (hout.refuses v)⟩
    dials := fun {v} hv => ⟨{ hv.attended with }, trans_of R hv.holds (hout.dials v host port)⟩ }

theorem keeps_writeBare (code : Int) : Keeps A R (do
    match Frame.encode code [] with
    | .ok bytes => write bytes
    | .error e => throw (.encode e)
    return true : Act Session Bool) :=
  keeps_iff.mpr fun w => preserves_writeBare (outlasts_kept ho ha w).speaks code

theorem keeps_send (code : Int) : Keeps A R (send ask code) :=
  keeps_iff.mpr fun w => (outlasts_kept ho ha w).sends code

theorem leads_handle (frame : Frame) (hr : s.link.readsFrom ≠ none) :
    Leads (Under A R) (handle ask frame) s :=
  leads_of_kept (preserves_handle (outlasts_kept ho ha s).looks.toHandles frame hr)

theorem keeps_drain (bound : Nat) : Keeps A R (drain ask bound) :=
  keeps_iff.mpr fun w => preserves_drain (outlasts_kept ho ha w).looks.toHandles bound

theorem keeps_drainAll : Keeps A R (drainAll ask) :=
  keeps_iff.mpr fun w => preserves_drainAll (outlasts_kept ho ha w).looks.toHandles

theorem keeps_tick : Keeps A R (tick ask) :=
  keeps_iff.mpr fun w => preserves_tick (outlasts_kept ho ha w).looks

/-! ### Requests -/

theorem answering_kept {K : Request → Prop}
    (peer : ∀ q, K q → q.isPeers = true → Keeps A R (answer ask q))
    (dial : ∀ host port, K (.connect host port) ∨ K (.connectUnlooped host port) →
      Keeps A R (connect ask host port))
    (pace : K .paceTick ∨ K .paceTickUnlooped → Keeps A R (paceTick ask))
    (start : K .start → Keeps A R startTicker) (cancel : K .cancelTicker → Keeps A R cancelTicker)
    (w : Session) : Answering A K (KeptFrom A R w) (Ordinarily (KeptFrom A R w)) ask where
  raised _ hs _ := hs
  carried h hs he := h (hs he)
  log _ _ hs := hs.under (under_of_aside ho (aside_record _ rfl))
  unloops _ hs := by
    refine hs.under (under_of_aside ho ?_)
    exact .of_still (fun hs => { hs with }) rfl rfl rfl rfl rfl rfl rfl
  listens known _ _ hl hg hs :=
    hs.under (under_of_aside ho (aside_listening hs.attended known hl hg))
  sets i f h hs := by
    refine hs.under (under_of_aside ho (aside_onConnection _ i fun c _ => ?_))
    rw [h]
    exact .refl _
  peer q hk h := keeps_iff.mp (peer q hk h) w
  connect host port hk := keeps_iff.mp (dial host port hk) w
  drop notify := preserves_disconnect (outlasts_kept ho ha w) notify
  tick := keeps_iff.mp (keeps_tick ho ha) w
  send code _ s :=
    .bind (preserves_tellOfHeld fun _ _ => (outlasts_kept ho ha w).tells rfl) fun _ =>
      (outlasts_kept ho ha w).sends code
  put _ _ _ := preserves_put (outlasts_kept ho ha w)
  marks _ {s} hs := hs.under (under_of_aside ho (aside_marked s))
  poll := (outlasts_kept ho ha w).poll
  fire _ s := preserves_fire (outlasts_kept ho ha w).attends fun hs =>
    hs.under (under_of_aside ho (aside_signalled s))
  pace hk := keeps_iff.mp (pace hk) w
  start hk := keeps_iff.mp (start hk) w
  cancel hk := keeps_iff.mp (cancel hk) w

/-- The relation holds through a request in which neither the pacer nor the peer acts and
nobody connects, if it does through those of the listeners. -/
theorem keeps_answer_aside {request : Request}
    (script : ∀ trace, Script.Within A (request.script trace)) (aside : request.isAside = true) : Keeps A R (answer ask request) := by
  refine keeps_iff.mpr fun w => preserves_answer (K := (·.isAside = true)) ?_ aside script
  refine answering_kept ho ha (fun q hk h => ?_) (by simp [Request.isAside])
    (by simp [Request.isAside]) (by simp [Request.isAside]) (by simp [Request.isAside]) w
  cases q <;> cases hk <;> cases h

/-- So it does through any request, if it does through the connecting and through what the
peer and the pacer do. -/
theorem keeps_answer {request : Request} (script : ∀ trace, Script.Within A (request.script trace))
    (dial : ∀ host port, Keeps A R (connect ask host port))
    (peer : request.isPeers = true → Keeps A R (answer ask request))
    (pace : Keeps A R (paceTick ask)) (start : Keeps A R startTicker)
    (cancel : Keeps A R cancelTicker) : Keeps A R (answer ask request) := by
  refine keeps_iff.mpr fun w => preserves_answer (K := (· = request)) ?_ rfl script
  refine answering_kept ho ha (fun q hk h => ?_) (fun host port _ => dial host port)
    (fun _ => pace) (fun _ => start) (fun _ => cancel) w
  subst hk
  exact peer h

end Asks

end Acts

end Session
end DiagnosticWatch
