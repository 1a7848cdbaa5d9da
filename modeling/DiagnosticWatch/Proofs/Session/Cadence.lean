/-
# The cadence of the ticker

While the link connects or holds a connection its ticker is to wait for the
short interval only. So it does, unless the peer had closed the connection when
the ticker ticked: then the tick has read what there was left to read, and the
ticker waits for the long interval, although the connection is still held.

That is so because a tick ends with a connection only if it was up before, and
has then read every whole frame of it (`Spent`), while nothing is received in
between (`Tends`).

Key definitions: `Session.waits`, `Session.peerLeft`, `Session.Tends`,
`Session.Spent`, `Session.Meanwhile`.
Key theorems: `Session.drained_of_drain`, `Session.spent_of_tickOnce`,
`Session.waits_by_peer`.
-/
import DiagnosticWatch.Proofs.Session.Pacing

namespace DiagnosticWatch

/-- The request is none of the peer's. -/
def Request.Ours (q : Request) : Prop :=
  q.isPeers = false

/-- The request is none of the peer's, and nobody connects for it or ticks the pacer. -/
def Request.Onlooking : Request → Prop
  | .data .. | .endOfInput _ | .lose .. | .connect .. | .connectUnlooped .. | .paceTick
  | .paceTickUnlooped => False
  | _ => True

/-- How long the ticker is going to wait, and since when. -/
def Event.wait? : Event → Option (Number × Float)
  | .wait seconds time => some (seconds, time)
  | _ => none

/-- Whether an event begins no wait, refuses no step and has nothing to do with the traffic. -/
def Event.isCasual (e : Event) : Bool :=
  e.wait?.isNone && e.refusal?.isNone && !e.isPulse

theorem Event.isCasual_iff {e : Event} :
    e.isCasual = true ↔ (e.wait? = none ∧ e.refusal? = none) ∧ e.isPulse = false := by
  simp [isCasual]

theorem Event.isCasual_of_isPacing {e : Event} (h : e.isPacing = true) : e.isCasual = true := by
  cases e <;> first | rfl | cases h

namespace Session

open Act

variable {A : Request → Prop} {R : Session → Session → Prop} {s t u v : Session} {α : Type}
  {ask : Request → Act Session Answer} {settings : Settings}

/-- The waits that the ticker has begun so far, the latest first. -/
def waits (s : Session) : List (Number × Float) :=
  s.trace.latestFirst.filterMap Event.wait?

/-- Whether the peer has closed the connection that is read from. -/
def peerLeft (s : Session) : Bool :=
  s.receiver?.any Receiver.peerClosed

/-- From `s` to `t` nothing is received, the ticker does not begin to wait, and the connection
of a link that is connected in `t` was its own in `s`. -/
structure Tends (s t : Session) : Prop where
  reads : OnlyReads s t
  waits : t.waits = s.waits
  held : t.phase = .connected → s.phase = .connected ∧ t.link.readsFrom = s.link.readsFrom

/-- A link that is disconnected in `s` is so in `t`. -/
def KeepsDown (s t : Session) : Prop :=
  s.phase = .disconnected → t.phase = .disconnected

/-- From `s` to `t` the ticker does not begin to wait. -/
def SameWaits (s t : Session) : Prop :=
  t.waits = s.waits

instance : IsPreorder Session Tends where
  refl _ := ⟨onlyReads_of_eq rfl, rfl, fun h => ⟨h, rfl⟩⟩
  trans _ _ _ h h' := by
    refine ⟨h.reads.trans h'.reads, h'.waits.trans h.waits, fun hp => ?_⟩
    obtain ⟨ht, hr'⟩ := h'.held hp
    obtain ⟨hs, hr⟩ := h.held ht
    exact ⟨hs, hr'.trans hr⟩

instance : IsPreorder Session KeepsDown where
  refl _ := id
  trans _ _ _ h h' hs := h' (h hs)

instance : IsPreorder Session SameWaits where
  refl _ := rfl
  trans _ _ _ h h' := Eq.trans h' h

instance : IsPreorder Session Alike where
  refl := .refl
  trans _ _ _ := .trans

theorem waits_of_unpaced {more : List Event}
    (h : t.trace.latestFirst = more ++ s.trace.latestFirst) (hu : ∀ e ∈ more, e.isPaced = false) :
    t.waits = s.waits := by
  unfold waits
  rw [h]
  refine filterMap_of_untold fun e he => ?_
  have hunpaced := hu e he
  cases e with
  | wait => cases hunpaced
  | _ => rfl

theorem waits_telling {e : Event} (h : e.wait? = none) (s : Session) :
    (s.telling e).waits = s.waits := by
  simp [waits, Session.telling, Trace.record, h]

theorem tends_telling {e : Event} (h : e.wait? = none) (s : Session) : Tends s (s.telling e) :=
  ⟨onlyReads_of_eq rfl, waits_telling h s, fun hp => ⟨hp, rfl⟩⟩

theorem overlooks_tends : Overlooks A Tends := by
  intro s t h
  obtain ⟨more, hm, hu⟩ := h.unpaced
  refine ⟨h.reads, waits_of_unpaced hm hu, fun hp => ?_⟩
  obtain ⟨hphase, hreads⟩ | hdown := h.phase
  · exact ⟨hphase.symm.trans hp, hreads⟩
  · rw [hdown] at hp
    cases hp

theorem overlooksSetOut_tends : OverlooksSetOut Tends where
  sets s _ := ⟨onlyReads_of_eq rfl, waits_telling rfl s, nofun⟩
  refuses s := tends_telling rfl s
  dials _ _ _ := ⟨onlyReads_of_eq rfl, rfl, fun hp => ⟨hp, rfl⟩⟩

theorem overlooks_keepsDown : Overlooks A KeepsDown := fun _ _ h hp =>
  h.phase.elim (fun ⟨hphase, _⟩ => hphase.trans hp) id

/-- A connection that is still held has received what it had, of which frames were read. -/
theorem Tends.receiver (h : Tends s t) (hp : t.phase = .connected) {r : Receiver}
    (hr : s.receiver? = some r) : ∃ r', t.receiver? = some r' ∧ r.Reads r' := by
  unfold receiver? at hr ⊢
  rw [(h.held hp).2]
  cases hi : s.link.readsFrom with
  | none =>
    rw [hi] at hr
    cases hr
  | some i =>
    rw [hi] at hr
    cases hc : s.network.connections[i]? with
    | none => simp [hc] at hr
    | some c =>
      obtain ⟨c', hc', hreads⟩ := h.reads i c hc
      have hcr : c.receiver = r := by simpa [hc] using hr
      exact ⟨c'.receiver, by simp [hc'], hcr ▸ hreads⟩

/-! ### The acts of the pacer -/

/-- From `s` to `t` the link, the network and the clock stay, and nothing is told that matters to
them or to the ticker. -/
structure Casual (s t : Session) : Prop where
  link : t.link = s.link
  network : t.network = s.network
  now : t.loop.now = s.loop.now
  tells : ∃ more, t.trace.latestFirst = more ++ s.trace.latestFirst ∧
    ∀ e ∈ more, e.isCasual = true

theorem Casual.of_still (link : t.link = s.link) (network : t.network = s.network)
    (now : t.loop.now = s.loop.now) (trace : t.trace = s.trace) : Casual s t :=
  ⟨link, network, now, [], by rw [trace]; rfl, nofun⟩

theorem casual_telling {e : Event} (h : e.isCasual = true) (s : Session) :
    Casual s (s.telling e) :=
  ⟨rfl, rfl, rfl, [e], rfl, by simpa using h⟩

theorem Casual.waits (h : Casual s t) : t.waits = s.waits := by
  obtain ⟨more, hm, hall⟩ := h.tells
  unfold Session.waits
  rw [hm]
  exact filterMap_of_untold fun e he => (Event.isCasual_iff.mp (hall e he)).1.1

theorem Casual.refusals (h : Casual s t) : t.refusals = s.refusals := by
  obtain ⟨more, hm, hall⟩ := h.tells
  unfold Session.refusals
  rw [hm]
  exact filterMap_of_untold fun e he => (Event.isCasual_iff.mp (hall e he)).1.2

theorem Casual.inTime (h : Casual s t) : InTime s t := by
  obtain ⟨more, hm, hall⟩ := h.tells
  exact .of_idle more h.now (by rw [h.link]) hm fun e he => (Event.isCasual_iff.mp (hall e he)).2

/-- The relation overlooks what the pacer does by itself. -/
def Lax (R : Session → Session → Prop) : Prop :=
  ∀ s t, Casual s t → R s t

theorem lax_tends : Lax Tends := fun s t h =>
  ⟨onlyReads_of_eq (by rw [h.network]), h.waits, fun hp =>
    ⟨by rw [← hp, phase, phase, h.link], by rw [h.link]⟩⟩

theorem lax_keepsDown : Lax KeepsDown := fun s t h hp => by
  rw [← hp, phase, phase, h.link]

/-- What the pacer does at once is casual. -/
theorem PacerStroke.casual (h : PacerStroke s t) : Casual s t := by
  cases h with
  | tells he => exact casual_telling (Event.isCasual_of_isPacing he) s
  | notes => exact .of_still rfl rfl rfl rfl

section Lax

variable [IsPreorder Session R] (hl : Lax R)
include hl

theorem KeptFrom.casual (hs : KeptFrom A R u s) (h : Casual s t) : KeptFrom A R u t :=
  ⟨hs.attended.congr_link h.link, trans_of R hs.holds (hl s t h)⟩

theorem schedules_kept (w : Session) : Schedules (KeptFrom A R w) (Ordinarily (KeptFrom A R w)) where
  stroke h hs := hs.casual hl h.casual
  raised _ hs _ := hs
  caught he hs := hs he
  carried h hs he := h (hs he)
  busies _ hs := hs.casual hl (.of_still rfl rfl rfl rfl)
  readies hs := hs.casual hl (.of_still rfl rfl rfl rfl)
  disarms hs := hs.casual hl (.of_still rfl rfl rfl rfl)

theorem keeps_startTicker : Keeps A R startTicker :=
  keeps_iff.mpr fun w => preserves_startTicker (schedules_kept hl w)

theorem keeps_cancelTicker : Keeps A R cancelTicker :=
  keeps_iff.mpr fun w => preserves_cancelTicker (schedules_kept hl w)

variable (ho : Overlooks A R) (ha : ∀ q, Request.Within A q → Keeps A R (ask q))
include ho ha

theorem keeps_stop : Keeps A R (stop ask) :=
  keeps_iff.mpr fun w => preserves_stop (schedules_kept hl w)
    (preserves_disconnect (outlasts_kept ho ha w) true)

variable (dial : ∀ host port, Keeps A R (connect ask host port))
include dial

theorem paces_kept (w : Session) : Paces (KeptFrom A R w) (Ordinarily (KeptFrom A R w)) ask where
  toSchedules := schedules_kept hl w
  tick := preserves_tick (outlasts_kept ho ha w).looks
  connect _ _ := keeps_iff.mp (dial _ _) w
  poll := (outlasts_kept ho ha w).poll
  drop := preserves_disconnect (outlasts_kept ho ha w)

theorem keeps_paceTick : Keeps A R (paceTick ask) :=
  keeps_iff.mpr fun w => preserves_paceTick (paces_kept hl ho ha dial w)

/-- The ticker ticks, and waits. -/
theorem keeps_runTicker (arms : ∀ {s t x}, Arms x s t → R s t) : Keeps A R (runTicker ask) :=
  keeps_iff.mpr fun w => preserves_runTicker (paces_kept hl ho ha dial w) fun h hs =>
    ⟨hs.attended.congr_link h.link, trans_of R hs.holds (arms h)⟩

end Lax

/-- A relation that overlooks what the link and the pacer do holds through a move, if it does
through the requests of listeners and those from outside, where the ticker runs, and when the
clock is set. -/
theorem under_of_moves [IsPreorder Session R] {B : Request → Prop} {move : Move}
    (hR : ∀ {s t}, Apart s t → R s t) (hl : Lax R)
    (ha : ∀ depth q, Request.Within A q → Keeps A R (perform depth q))
    (hb : ∀ depth q, Request.Within B q → Keeps A R (perform depth q))
    (ticker : ∀ depth, Keeps A R (runTicker (perform depth)))
    (clock : ∀ now, move = .clock now → R s { s with loop := { s.loop with now } })
    (hs : s.Fit B) (h : Moves B move s t) : Under A R s t := by
  cases move with
  | ask request =>
    obtain ⟨hq, depth, h⟩ := h
    exact hb depth request hq s t h
  | turn =>
    obtain ⟨depth, h⟩ := h
    exact leads_turn_apart hR (ha depth) (hb depth) (fun ready _ => ticker depth _) hs t h
  | alarm timer =>
    have ht := tidy_of_alarm hs.scripted h.2
    exact fun hs => ⟨hs.congr_link ht.link, hR ht.toApart⟩
  | clock now =>
    cases h
    exact fun hs => ⟨{ hs with }, clock now rfl⟩
  | pace pacer =>
    cases h
    exact fun hs => ⟨{ hs with }, hl s _ (.of_still rfl rfl rfl rfl)⟩
  | stop =>
    obtain ⟨depth, h⟩ := h
    exact keeps_stop hl (overlooks_of_apart hR) (ha depth) s t h

/-- However deep listeners nest requests, if the peer makes none of them. -/
theorem tends_perform (hA : ∀ q, A q → q.isPeers = false) (depth : Nat) (q : Request)
    (h : Request.Within A q) : Keeps A Tends (perform depth q) := by
  induction depth generalizing q with
  | zero => exact Keeps.throw _
  | succ depth ih =>
    have dial := keeps_connect overlooks_tends ih overlooksSetOut_tends
    refine keeps_answer overlooks_tends ih h.script_within dial ?_
      (keeps_paceTick lax_tends overlooks_tends ih dial)
      (keeps_startTicker lax_tends) (keeps_cancelTicker lax_tends)
    obtain ⟨self, -⟩ := h
    exact fun hpeer => absurd hpeer (by simp [hA q self])

theorem keepsDown_perform (depth : Nat) (q : Request) (h : Request.Within Request.Onlooking q) :
    Keeps Request.Onlooking KeepsDown (perform depth q) := by
  induction depth generalizing q with
  | zero => exact Keeps.throw _
  | succ depth ih =>
    have hself : q.Onlooking := by
      obtain ⟨self, -⟩ := h
      exact self
    cases q with
    | data | endOfInput | lose | connect | connectUnlooped | paceTick | paceTickUnlooped =>
      exact hself.elim
    | start => exact Keeps.bind (keeps_startTicker lax_keepsDown) fun _ => Keeps.pure _
    | cancelTicker => exact Keeps.bind (keeps_cancelTicker lax_keepsDown) fun _ => Keeps.pure _
    | _ => exact keeps_answer_aside overlooks_keepsDown ih h.script_within rfl

/-! ### What a tick leaves of a connection -/

theorem Keeps.answers {act : Act Session α} {a : α} (h : Keeps A R act) (e : act s = .ok a t)
    (hs : s.Attended A) : t.Attended A ∧ R s t :=
  h s t (ends_of_ok e) hs

/-- If the link is connected in `t`, it was up in `s`, and no whole frame waits any more. -/
def Spent (s t : Session) : Prop :=
  t.phase = .connected → s.isUp = true ∧ ∃ r, t.receiver? = some r ∧ r.inbox.hasFrame = false

theorem spent_of_apart (h : t.phase ≠ .connected) : Spent s t :=
  fun hp => absurd hp h

theorem Spent.tends (h : Spent s u) (ht : Tends u t) : Spent s t := by
  intro hp
  obtain ⟨hup, r, hr, hnone⟩ := h (ht.held hp).1
  obtain ⟨r', hr', hreads⟩ := ht.receiver hp hr
  refine ⟨hup, r', hr', Bool.eq_false_iff.mpr fun hw => ?_⟩
  exact Bool.eq_false_iff.mp hnone (hreads.whole hw)

theorem receiver?_tookOut {i : Nat} {c : Connection} (hi : s.link.readsFrom = some i)
    (hc : s.network.connections[i]? = some c) (f : Frame) (rest : Inbox) :
    (s.tookOut i f rest).receiver? = some { c.receiver with inbox := rest } := by
  refine receiver?_eq_some.mpr
    ⟨i, { c with receiver := { c.receiver with inbox := rest } }, hi, ?_, rfl⟩
  simp [tookOut, refilled, Array.getElem?_modify, hc]

section Ticks

variable (ha : ∀ q, Request.Within A q → Keeps A Tends (ask q))
include ha

/-- There is no connection when the link has left. -/
theorem apart_of_left (hs : s.Attended A) (h : (leave ask).Ends s t) : t.phase ≠ .connected := by
  unfold Ends at h
  rw [leave_apply] at h
  have htends := (leads_left overlooks_tends ha s t h hs.left).2
  intro hp
  have := (htends.held hp).1
  rw [phase_left] at this
  cases this

theorem apart_of_drop (hs : s.Attended A) (h : (disconnect ask false).Ends s t) :
    t.phase ≠ .connected := by
  obtain ⟨v, hv, -⟩ := callOff_keeps s
  rw [disconnect_eq] at h
  unfold Ends at h
  rw [bind_of_ok hv] at h
  exact apart_of_left ha ((aside_callOff hv).attended hs) h

theorem apart_of_disconnected (hs : s.Attended A) {notify : Bool}
    (h : disconnect ask notify s = .ok () t) : t.phase ≠ .connected := by
  rw [disconnect_eq] at h
  obtain ⟨_, v, hv, h⟩ := ok_bind h
  have hcalled : v.Attended A := (aside_callOff hv).attended hs
  cases notify with
  | false => exact apart_of_left ha hcalled (ends_of_ok h)
  | true =>
    obtain ⟨_, w, hw, h⟩ := ok_bind h
    have htaken := (keeps_takeLeave overlooks_tends ha).answers hw hcalled
    exact apart_of_left ha htaken.1 (ends_of_ok h)

theorem apart_of_giveUp (hs : s.Attended A) {e : WireError} (h : giveUp ask e s = .ok () t) :
    t.phase ≠ .connected := by
  obtain ⟨_, v, hv, h⟩ := ok_bind h
  exact apart_of_disconnected ha ((keeps_log overlooks_tends _ _).answers hv hs).1 h

/-- There is no connection when the link could not send. -/
theorem apart_of_send_false (hs : s.Attended A) {code : Int} (h : send ask code s = .ok false t) :
    t.phase ≠ .connected := by
  unfold send at h
  rw [get_bind_apply] at h
  split at h
  · rename_i hp
    cases h
    exact hp
  rcases ok_rescue h with h | ⟨e, v, hc, hv, h⟩
  · -- What has been written is answered with yes.
    cases hf : Frame.encode code [] with
    | ok bytes =>
      simp only [hf] at h
      obtain ⟨_, w, -, h⟩ := ok_bind h
      cases h
    | error e =>
      simp only [hf] at h
      cases h
  · have hwritten := keeps_writeBare overlooks_tends ha code s v
      (.inr ⟨e, isOrdinary_of_isWriteFailure e hc, hv⟩) hs
    obtain ⟨_, w, hw, h⟩ := ok_bind h
    have hlogged := (keeps_log (overlooks_tends (A := A)) _ _).answers hw hwritten.1
    obtain ⟨_, u, hu, h⟩ := ok_bind h
    cases h
    exact apart_of_disconnected ha hlogged.1 hu

/-- When the frames have been handled and the connection is still held, none waits. The
induction is on the bound, which what is held stays below. -/
theorem drained_of_drain {bound : Nat} {r : Receiver} (hs : s.Attended A)
    (hr : s.receiver? = some r) (hb : r.inbox.size < bound) (h : drain ask bound s = .ok () t)
    (hp : t.phase = .connected) : ∃ r', t.receiver? = some r' ∧ r'.inbox.hasFrame = false := by
  induction bound generalizing s r with
  | zero => omega
  | succ bound ih =>
    obtain ⟨i, c, hi, hc, rfl⟩ := receiver?_eq_some.mp hr
    rw [drain_succ ask hi hr] at h
    rcases hn : c.receiver.inbox.next with ⟨e | _ | f, rest⟩ <;> rw [hn] at h
    · exact absurd hp (apart_of_giveUp ha hs h)
    · cases h
      exact ⟨c.receiver, hr, Inbox.hasFrame_of_next hn⟩
    · have htaken := aside_tookOut (A := A) hi hc hn
      obtain ⟨a, v, hv, h⟩ := ok_bind h
      have hr : (s.tookOut i f rest).link.readsFrom ≠ none := by
        show s.link.readsFrom ≠ none
        simp [hi]
      have hhandled :=
        leads_handle overlooks_tends ha f hr v (ends_of_ok hv) (htaken.attended hs)
      cases a with
      | error e => exact absurd hp (apart_of_giveUp ha hhandled.1 h)
      | ok =>
        have hrest := (keeps_drain overlooks_tends ha bound).answers h hhandled.1
        have hv := hrest.2.held hp
        obtain ⟨r', hr', hreads⟩ := hhandled.2.receiver hv.1 (receiver?_tookOut hi hc f rest)
        have hsize : rest.size < c.receiver.inbox.size := Inbox.size_lt_of_next hn
        have hle : r'.inbox.size ≤ rest.size := hreads.size
        exact ih hhandled.1 hr' (by omega) h

theorem spent_of_drainAll (hup : s.isUp = true) (hv : v.Attended A ∧ Tends s v)
    (h : drainAll ask v = .ok () t) : Spent s t := by
  intro hp
  have hrest := (keeps_drainAll overlooks_tends ha).answers h hv.1
  obtain ⟨-, r, hr, -⟩ := receiver_of_isUp hup
  obtain ⟨r', hr', -⟩ := hv.2.receiver (hrest.2.held hp).1 hr
  unfold drainAll at h
  rw [get_bind_apply] at h
  simp only [hr'] at h
  exact ⟨hup, drained_of_drain ha hv.1 hr' (Nat.lt_succ_self _) h hp⟩

omit ha in
theorem keeps_looked (finding : Finding) : Keeps A Tends (tellOfHeld (.looked · finding)) :=
  keeps_iff.mpr fun _ s => preserves_tellOfHeld fun _ _ hs =>
    hs.under fun ht => ⟨{ ht with }, tends_telling rfl s⟩

/-- A tick of the link ends with a connection only if it was up, and has read all of it. -/
theorem spent_of_tick (hs : s.Attended A) (h : tick ask s = .ok () t) : Spent s t := by
  have ho := overlooks_tends (A := A)
  unfold tick at h
  rw [get_bind_apply] at h
  split at h
  · rename_i hapart
    cases h
    exact spent_of_apart hapart
  split at h
  · obtain ⟨_, v, hv, h⟩ := ok_bind h
    have hlooked := (keeps_looked _).answers hv hs
    refine spent_of_apart ?_
    split at h
    · obtain ⟨_, w, hw, h⟩ := ok_bind h
      exact apart_of_disconnected ha ((keeps_log ho _ _).answers hw hlooked.1).1 h
    · obtain ⟨_, w, hw, h⟩ := ok_bind h
      exact apart_of_disconnected ha ((keeps_log ho _ _).answers hw hlooked.1).1 h
  rename_i hdown
  have hup : s.isUp = true := by simpa using hdown
  split at h
  · obtain ⟨_, v, hv, h⟩ := ok_bind h
    have hlooked := (keeps_looked _).answers hv hs
    obtain ⟨_, w, hw, h⟩ := ok_bind h
    have hnoted : w.Attended A ∧ Tends v w := by
      cases hw
      exact ⟨{ hlooked.1 with }, onlyReads_of_eq rfl, rfl, fun hp => ⟨hp, rfl⟩⟩
    obtain ⟨sent, u, hu, h⟩ := ok_bind h
    have hsaid := (keeps_send ho ha _).answers hu hnoted.1
    cases sent with
    | true =>
      have htends := trans_of Tends (trans_of Tends hlooked.2 hnoted.2) hsaid.2
      exact spent_of_drainAll ha hup ⟨hsaid.1, htends⟩ h
    | false =>
      cases h
      exact spent_of_apart (apart_of_send_false ha hnoted.1 hu)
  · obtain ⟨_, v, hv, h⟩ := ok_bind h
    exact spent_of_drainAll ha hup ((keeps_looked _).answers hv hs) h

theorem spent_of_upkeep (hs : s.Attended A) (h : upkeep ask s = .ok () t) : Spent s t := by
  have ho := overlooks_tends (A := A)
  obtain ⟨_, v, hv, h⟩ := ok_bind h
  have hticked := (keeps_tick ho ha).answers hv hs
  have hspent : Spent s v := spent_of_tick ha hs hv
  rw [get_bind_apply] at h
  obtain ⟨_, w, hw, h⟩ := ok_bind h
  have hpaces := paces_kept lax_tends ho ha (keeps_connect ho ha overlooksSetOut_tends) v
  have htold : KeptFrom A Tends v w := by
    cases hw
    exact ⟨{ hticked.1 with }, tends_telling rfl v⟩
  split at h
  · exact hspent.tends ((preserves_maybeConnect hpaces w htold).1 () t h).holds
  · cases h
    exact hspent.tends htold.holds

/-- What fails in the upkeep drops the connection. -/
theorem spent_of_rescue (hs : s.Attended A)
    (h : ((upkeep ask).rescue Fault.isOrdinary fun _ => do
      log .error "Unexpected error while ticking the debug client"
      disconnect ask false).Ends s t) : t.Attended A ∧ Spent s t := by
  have ho := overlooks_tends (A := A)
  have hupkeep : Keeps A Tends (upkeep ask) := keeps_iff.mpr fun w =>
    preserves_upkeep (paces_kept lax_tends ho ha (keeps_connect ho ha overlooksSetOut_tends) w)
  have hdrop : Keeps A Tends (do
      log .error "Unexpected error while ticking the debug client"
      disconnect ask false) :=
    Keeps.bind (keeps_log ho _ _) fun _ => keeps_disconnect ho ha false
  refine ⟨(Keeps.rescue (fun _ h => h) hupkeep (fun _ => hdrop) s t h hs).1, ?_⟩
  rcases ends_rescue_cases h with ⟨_, h⟩ | ⟨e, u, hc, h, hhandle⟩ | ⟨e, he, hc, -⟩
  · exact spent_of_upkeep ha hs h
  · have hu := (hupkeep s u (.inr ⟨e, hc, h⟩) hs).1
    let v := u.telling (.log .error "Unexpected error while ticking the debug client")
    have hv : v.Attended A := { hu with }
    exact spent_of_apart (apart_of_drop ha hv hhandle)
  · exact absurd he (by simp [hc])

/-- A tick of the pacer ends with a connection only if it was up, and has read all of it. -/
theorem spent_of_tickOnce (hs : s.Attended A) (h : (tickOnce ask).Ends s t) : Spent s t := by
  let v := s.telling .pacing
  have hv : v.Attended A := { hs with }
  unfold Ends tickOnce at h
  rw [bind_of_ok (show tell .pacing s = .ok () v from rfl)] at h
  suffices Spent v t from this
  rcases ends_bind_cases h with ⟨_, w, hw, h⟩ | ⟨e, he, h⟩
  · obtain ⟨hattended, hspent⟩ := spent_of_rescue ha hv (ends_of_ok hw)
    have hpoll := keeps_poll (overlooks_tends (A := A)) ha
    exact hspent.tends ((hpoll w t (ends_of_bind_pure h) hattended).2)
  · exact (spent_of_rescue ha hv (.inr ⟨e, he, h⟩)).2

/-! ### The ticker -/

theorem spent_of_paceTick (hb : s.pacer.busy = false) (hg : s.pacer.stopped = false)
    (hs : s.Attended A) (h : (paceTick ask).Ends s t) : Spent s t := by
  unfold Ends at h
  rw [paceTick_apply hb hg] at h
  obtain ⟨v, hv, rfl⟩ := ends_ensuring h
  have hbusied : s.busied.Attended A := { hs with }
  have hspent : Spent s.busied v := spent_of_tickOnce ha hbusied (ends_of_bind_pure hv)
  exact hspent

/-- Where the ticker begins to wait, it has ticked. -/
theorem arms_of_runTicker (hp : s.Paced settings) (hb : s.pacer.busy = false) (hs : s.Attended A)
    (h : (runTicker ask).Ends s t) (hw : t.waits ≠ s.waits) :
    ∃ x v, v.interval.toFloat? = some x ∧ Arms x v t ∧ Tends s v ∧ Spent s v := by
  let v := s.ticking .ticking
  have hv : v.Attended A := { hs with }
  have hpace := keeps_paceTick lax_tends overlooks_tends ha
    (keeps_connect overlooks_tends ha overlooksSetOut_tends)
  have hticks : s.pacer.ticker ≠ .absent → (do
      onPacer fun p => { p with ticker := .ticking }
      let _ ← paceTick ask
      awaitTick : Act Session Unit).Ends s t →
      ∃ x v, v.interval.toFloat? = some x ∧ Arms x v t ∧ Tends s v ∧ Spent s v := by
    intro hne h
    have hg : v.pacer.stopped = false := (hp.unstopped hne).going
    unfold Ends at h
    rw [bind_of_ok (show onPacer _ s = .ok () v from rfl)] at h
    rcases ends_bind_cases h with ⟨b, u, hu, h⟩ | ⟨e, he, h⟩
    · have htends : Tends v u := (hpace v u (ends_of_ok hu) hv).2
      have hspent : Spent v u := spent_of_paceTick ha hb hg hv (ends_of_ok hu)
      rcases awaitTick_cases u with ⟨-, e⟩ | ⟨x, w, hx, e, harms⟩
      · rw [(ends_ok_iff e).mp h] at hw
        exact absurd htends.waits hw
      · rw [(ends_ok_iff e).mp h]
        exact ⟨x, u, hx, harms, ⟨htends.reads, htends.waits, htends.held⟩, hspent⟩
    · exact absurd (hpace v t (.inr ⟨e, he, h⟩) hv).2.waits hw
  unfold runTicker at h
  rw [ends_get_bind] at h
  split at h
  · rename_i htick
    exact hticks (by rw [htick]; nofun) h
  · rename_i htick
    exact hticks (by rw [htick]; nofun) h
  · rw [(ends_ok_iff (v := (s.ticking .ended).disarmed .ticker) (a := ()) rfl).mp h] at hw
    exact absurd rfl hw
  · rw [(ends_ok_iff (pure_apply () s)).mp h] at hw
    exact absurd rfl hw

end Ticks

/-- What the ticker waits for depends on whether the peer of a connection that is still held
had left when it ticked. -/
theorem interval_of_spent (ht : Tends s v) (h : Spent s v) :
    v.interval = if v.phase = .disconnected ∨ v.phase = .connected ∧ s.peerLeft = true
      then v.pacer.settings.retryInterval else v.pacer.settings.connectedInterval := by
  cases hp : v.phase with
  | disconnected => simp [interval, isUp, hp]
  | connecting => simp [interval, hp]
  | connected =>
    obtain ⟨hup, r', hr', hnone⟩ := h hp
    obtain ⟨-, r, hr, halive⟩ := receiver_of_isUp hup
    obtain ⟨r'', hr'', hreads⟩ := ht.receiver hp hr
    cases hr'.symm.trans hr''
    obtain ⟨herror, -⟩ := Bool.and_eq_true_iff.mp halive
    have hleft : s.peerLeft = r.peerClosed := by simp [peerLeft, hr]
    have hup' : v.isUp = !r.peerClosed := by
      simp [isUp, hp, hr', Receiver.isAlive, hnone, hreads.peerClosed, hreads.error, herror]
    cases hc : r.peerClosed <;> simp [interval, hp, hup', hleft, hc]

/-! ### Runs -/

/-- Some moves take `s` to `t` in none of which the ticker runs, or somebody connects or ticks
the pacer; the peer may do anything. -/
def Meanwhile : Session → Session → Prop :=
  Relation.ReflTransGen fun s t =>
    (∃ move, Moves Request.Onlooking move s t ∧
      (move = .turn → s.loop.ready.head? ≠ some .ticker)) ∨
    ∃ request depth, request.isPeers = true ∧ (perform depth request).Ends s t

theorem keepsDown_of_turn (depth : Nat) (hs : s.Fit Request.Onlooking)
    (hn : s.loop.ready.head? ≠ some .ticker) (h : (turn (perform depth)).Ends s t) :
    KeepsDown s t := by
  rcases turn_cases h with ⟨-, rfl⟩ | ⟨job, ready, hr, hj⟩
  · exact refl_of KeepsDown t
  have hp : (s.popped ready).Fit Request.Onlooking := (tidy_popped hr).fit hs
  refine trans_of KeepsDown (show KeepsDown s (s.popped ready) from id) ?_
  rcases job.cases_errand with ⟨d, errand, rfl⟩ | ⟨script, rfl⟩ | rfl
  · cases hd : s.dial? d with
    | none =>
      rw [(ends_ok_iff (runJob_of_absent (s := s.popped ready) errand hd)).mp hj]
      exact refl_of KeepsDown _
    | some dial =>
      by_cases he : errand = .resumeDial
      · subst he
        exact fun hdown => (stays_of_resumes hp.scripted hdown hd
          (resumes_of_resumeDial (works_perform depth) hp hd hj)).1.phase
      · have htidy := tidy_errand hp.scripted hd he hj
        exact fun hdown => by rw [← hdown, phase, phase, htidy.link]
  · have hw : Script.Within Request.Onlooking script := hs.scripted.ready script (by simp [hr])
    have hscript : Keeps Request.Onlooking KeepsDown
        ((Script.run Request.name (perform depth) script).rescue Fault.isOrdinary
          fun _ => pure ()) :=
      Keeps.rescue (fun _ h => h) (keeps_script overlooks_keepsDown (keepsDown_perform depth)
        (keepsDown_perform depth) hw) fun _ => Keeps.pure ()
    exact (hscript _ t hj hp.scripted.attended).2
  · exact absurd (by rw [hr]; rfl) hn

theorem keepsDown_of_moves (hs : s.Fit Request.Onlooking) {move : Move}
    (hn : move = .turn → s.loop.ready.head? ≠ some .ticker)
    (h : Moves Request.Onlooking move s t) : KeepsDown s t := by
  cases move with
  | ask request =>
    obtain ⟨hw, depth, h⟩ := h
    exact (keepsDown_perform depth request hw s t h hs.scripted.attended).2
  | turn =>
    obtain ⟨depth, h⟩ := h
    exact keepsDown_of_turn depth hs (hn rfl) h
  | alarm timer =>
    have htidy := tidy_of_alarm hs.scripted h.2
    exact fun hdown => by rw [← hdown, phase, phase, htidy.link]
  | clock now | pace pacer =>
    cases h
    exact id
  | stop =>
    obtain ⟨depth, h⟩ := h
    exact (keeps_stop lax_keepsDown overlooks_keepsDown (keepsDown_perform depth) s t h
      hs.scripted.attended).2

theorem alike_ofPeer (depth : Nat) {request : Request} (h : request.isPeers = true) (s : Session) :
    Leads Alike (perform depth request) s := by
  cases depth with
  | zero => exact Leads.throw _ s
  | succ depth =>
    exact leads_ofPeer (fun v _ _ => alike_connections v Array.size_modify)
      (fun v _ _ => alike_record v rfl) h s

/-- While the ticker waits, a link that is disconnected stays so. -/
theorem keepsDown_of_meanwhile (hs : s.Fit Request.Onlooking) (h : Meanwhile s t) :
    t.Fit Request.Onlooking ∧ KeepsDown s t := by
  induction h with
  | refl => exact ⟨hs, refl_of KeepsDown s⟩
  | @tail u v _ hm ih =>
    obtain ⟨hu, hdown⟩ := ih
    rcases hm with ⟨move, hm, hn⟩ | ⟨request, depth, hpeer, he⟩
    · exact ⟨hu.moves hm, trans_of KeepsDown hdown (keepsDown_of_moves hu hn hm)⟩
    · have halike := alike_ofPeer depth hpeer u v he
      exact ⟨hu.change (.plain halike), fun hp => halike.phase.trans (hdown hp)⟩

/-- In a turn that begins a wait the ticker runs. -/
theorem ticker_of_waits {depth : Nat} (hA : ∀ q, A q → q.isPeers = false) (hs : s.Fit A)
    (h : (turn (perform depth)).Ends s t) (hw : t.waits ≠ s.waits) :
    ∃ ready, s.loop.ready = .ticker :: ready ∧
      (runTicker (perform depth)).Ends (s.popped ready) t := by
  have hask : ∀ q, Request.Within A q → Keeps A SameWaits (perform depth q) := fun q hq s t ht hs =>
    have htends := tends_perform hA depth q hq s t ht hs
    ⟨htends.1, htends.2.waits⟩
  have hapart : ∀ {s t}, Apart s t → SameWaits s t := fun h =>
    let ⟨_, hm, hu⟩ := h.unpaced
    waits_of_unpaced hm hu
  by_cases hr : s.loop.ready.head? = some .ticker
  · obtain ⟨ready, hr⟩ := List.head?_eq_some_iff.mp hr
    rcases turn_cases h with ⟨hnil, -⟩ | ⟨job, rest, hjob, hj⟩
    · rw [hr] at hnil
      cases hnil
    · cases hr.symm.trans hjob
      exact ⟨ready, hr, hj⟩
  · refine absurd (leads_turn_apart hapart hask hask (fun ready he => ?_) hs t h
      hs.scripted.attended).2 hw
    exact absurd (by rw [he]; rfl) hr

/-- Whenever the ticker begins to wait after a tick, it does so for the long interval if the
link is disconnected, or if the peer of the connection that it still holds had left when the
tick began, so that the tick has read what there was left; and otherwise for the short one.
What the peer sends comes between the turns of the loop: no listener plays its part.
While it waits, a link that was disconnected stays so, unless somebody connects or ticks the
pacer: whoever has something to look after has a ticker that waits as after the tick. -/
theorem waits_by_peer (link pacer : Settings) (store : Store) (outcomes : List Outcome)
    (probe : Option (List (Option Json)))
    (h : Unpaced (fun _ => True) (start link pacer store outcomes probe) s)
    (hs : s.Scripted Request.Ours) {depth : Nat} (ht : (turn (perform depth)).Ends s t)
    {seconds : Number} {time : Float} (hw : t.waits = (seconds, time) :: s.waits) :
    seconds = (if t.phase = .disconnected ∨ t.phase = .connected ∧ s.peerLeft = true
      then pacer.retryInterval else pacer.connectedInterval) ∧
    (t.phase = .connected → s.isUp = true ∧ t.link.readsFrom = s.link.readsFrom) ∧
    time = t.loop.now ∧ (∃ x, seconds.toFloat? = some x ∧ ⟨time + x, .ticker⟩ ∈ t.loop.timers) ∧
    ∀ u, t.Scripted Request.Onlooking → Meanwhile t u → t.phase = .disconnected →
      u.phase = .disconnected := by
  have hrun : Unpaced (fun _ => True) (start link pacer store outcomes probe) t :=
    trans_of (Unpaced _) h (leads_turn depth s t ht)
  obtain ⟨hpaced, hbusy⟩ := paced_of_unpaced h
  have hours : s.Fit Request.Ours := ⟨hs, (fit_of_unpaced h).held⟩
  have hne : t.waits ≠ s.waits := by
    rw [hw]
    exact List.cons_ne_self _ _
  obtain ⟨ready, hr, hticker⟩ := ticker_of_waits (fun _ hq => hq) hours ht hne
  have hpopped : (s.popped ready).Paced pacer := hpaced.congr rfl rfl
  obtain ⟨x, v, hx, harms, htends, hspent⟩ := arms_of_runTicker
    (tends_perform (fun _ hq => hq) depth) hpopped hbusy ((tidy_popped hr).fit hours).scripted.attended
    hticker hne
  have hwaits : t.waits = (v.interval, v.loop.now) :: v.waits := by
    unfold waits
    rw [harms.trace]
    rfl
  obtain ⟨rfl, rfl⟩ : seconds = v.interval ∧ time = v.loop.now := by
    rw [hw] at hwaits
    injection hwaits with hhead
    injection hhead with hseconds htime
    exact ⟨hseconds, htime⟩
  have hsettings : v.pacer.settings = pacer := by
    have ht := (staysPaced_runTicker (keepsPace_perform depth) _ t hticker hpopped).1.config
    rw [harms.pacer] at ht
    exact ht
  have hphase : t.phase = v.phase := by rw [phase, phase, harms.link]
  have hinterval := interval_of_spent htends hspent
  rw [hsettings] at hinterval
  refine ⟨?_, fun hp => ?_, harms.now.symm, ⟨x, hx, ?_⟩, fun u hon hmean => ?_⟩
  · rw [hphase]
    exact hinterval
  · rw [hphase] at hp
    exact ⟨(hspent hp).1, by rw [harms.link, (htends.held hp).2]; rfl⟩
  · rw [harms.timers]
    exact List.mem_append_right _ List.mem_cons_self
  · exact (keepsDown_of_meanwhile ⟨hon, (fit_of_unpaced hrun).held⟩ hmean).2

/-- The peer of a connection sends a frame and closes: the tick that reads the frame leaves the
link connected, and the ticker waits for the long interval. -/
theorem waits_by_peer_of_end :
    let begun := start {} {} .empty [⟨.opens, .int 0, .none, [0, 0, 0, 0, 32], false, []⟩] none
    let s := begun.after [.ask (.connect "127.0.0.1" (.int 27099)), .pass (.int 0),
      .ask (.endOfInput none), .ask .start]
    let t := (turn (perform maxDepth)).leaves s
    s.peerLeft = true ∧ t.phase = .connected ∧
      ∃ time, t.waits = [(Settings.retryInterval {}, time)] := by
  intro begun s t
  have hrun : Unpaced (fun _ => True) begun s :=
    unpaced_of_steps _ (fun step _ => stepWithin_of_all (fun _ => trivial) step)
      (by decide +kernel)
  have hlife : s.link.life.listeners = [] := List.isEmpty_iff.mp (by decide +kernel)
  have hsignal : s.link.signal.listeners = [] := List.isEmpty_iff.mp (by decide +kernel)
  have houtcomes : s.network.outcomes = [] := List.isEmpty_iff.mp (by decide +kernel)
  have hrace : s.network.dials.all (·.attempt.outcome.race.isEmpty) = true := by decide +kernel
  have htasks : s.tasks = [] := List.isEmpty_iff.mp (by decide +kernel)
  have hours : s.Scripted Request.Ours := {
    life := by simp [hlife]
    signal := by simp [hsignal]
    outcomes := by simp [houtcomes]
    dials := by
      intro d dial hd
      have hm : dial ∈ s.network.dials := Array.mem_of_getElem? hd
      rw [List.isEmpty_iff.mp (Array.all_eq_true_iff_forall_mem.mp hrace dial hm)]
      exact Script.within_nil _
    ready := by
      intro script hm
      have htask := (mem_tasks rfl s).mpr hm
      rw [htasks] at htask
      cases htask }
  have hturn : (turn (perform maxDepth)).Ends s t := ends_leaves (by decide +kernel)
  have hphase : t.phase = .connected := by decide +kernel
  have hleft : s.peerLeft = true := by decide +kernel
  have hone : t.waits.length = 1 := by decide +kernel
  have hnone : s.waits = [] := List.length_eq_zero_iff.mp (by decide +kernel)
  obtain ⟨⟨seconds, time⟩, hw⟩ := List.length_eq_one_iff.mp hone
  have hlast := (waits_by_peer {} {} .empty _ none hrun hours hturn
    (hw.trans (by rw [hnone]))).1
  refine ⟨hleft, hphase, time, ?_⟩
  rw [hw, hlast, hphase, hleft]
  rfl

end Session
end DiagnosticWatch
