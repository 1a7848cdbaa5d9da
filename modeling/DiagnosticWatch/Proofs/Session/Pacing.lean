/-
# Attempts at a pace

The pacer asks its probe and makes the link connect only in a tick that left
the link disconnected, and not sooner after the last probe than the retry
interval says. What it tells of a tick stands in a fixed order
(`Event.Follows`), and its notes agree with what it has told (`Paced`).

While a tick is under way no other is made: whatever listeners ask for then,
the notes of the pacer stay (`OffPace`). So one tick takes a session that is
paced to another such (`keepsPace_paceTick`), and so does everything else in a run.

Key definitions: `saysYes`, `Event.Follows`, `InTurn`, `Session.Paced`,
`Session.OffPace`, `Session.KeepsPace`, `RetriesUpon`.
Key theorems: `Session.maybeConnect_cases`, `Session.keepsPace_paceTick`,
`Session.paced_of_unpaced`, `Session.attempts_at_pace`.
-/
import DiagnosticWatch.Proofs.Session.Latest
import DiagnosticWatch.Proofs.Session.Stopped

namespace DiagnosticWatch

/-- Whether a probe says that the server is likely to be there. -/
def saysYes (answer : Option Json) : Bool :=
  answer.any Json.isTrue

/-- The answer of a probe and the time at which it was asked. -/
def Event.probe? : Event → Option (Option Json × Float)
  | .probe answer time => some (answer, time)
  | _ => none

/-- Whether the pacer makes the link connect. -/
def Event.isRetry : Event → Bool
  | .retry .. => true
  | _ => false

/-- What was told before the pacer makes the link connect: right before a probe said yes,
and right before that the link's own tick had ended without a connection, in a tick of the
pacer in which it had done nothing else. -/
def RetriesUpon (settings : Settings) (host : String) (port : Number) (earlier : List Event) :
    Prop :=
  host = settings.host ∧ port = settings.port ∧ ∃ answer time rest,
    earlier = .probe answer time :: .upkept .disconnected :: rest ∧ saysYes answer = true ∧
      rest.find? Event.isPaced = some .pacing

/-- What was told before the pacer asks its probe. -/
def ProbesUpon (earlier : List Event) : Prop :=
  ∃ rest, earlier = .upkept .disconnected :: rest ∧ rest.find? Event.isPaced = some .pacing

/-- An event of the pacer may follow what was told before, given the latest first. -/
def Event.Follows (settings : Settings) (earlier : List Event) : Event → Prop
  | .retry host port => RetriesUpon settings host port earlier
  | .probe _ _ => ProbesUpon earlier
  | _ => True

/-- Each event may follow those before it. -/
def InTurn (settings : Settings) : List Event → Prop
  | [] => True
  | e :: earlier => e.Follows settings earlier ∧ InTurn settings earlier

variable {settings : Settings} {later earlier : List Event}

theorem Event.follows_of_unpaced {e : Event} (h : e.isPaced = false) : e.Follows settings earlier := by
  cases e with
  | probe | retry => cases h
  | _ => trivial

theorem InTurn.append (h : InTurn settings earlier) (hl : ∀ e ∈ later, e.isPaced = false) :
    InTurn settings (later ++ earlier) := by
  induction later with
  | nil => exact h
  | cons e later ih =>
    exact ⟨Event.follows_of_unpaced (hl e List.mem_cons_self),
      ih fun e he => hl e (List.mem_cons_of_mem _ he)⟩

theorem InTurn.drop (h : InTurn settings (later ++ earlier)) : InTurn settings earlier := by
  induction later with
  | nil => exact h
  | cons _ later ih => exact ih h.2

namespace Session

open Act

variable {s t u : Session} {ask : Request → Act Session Answer}

/-- The probes so far, the latest first: what each answered, and when. -/
def probes (s : Session) : List (Option Json × Float) :=
  s.trace.latestFirst.filterMap Event.probe?

/-- The notes of the pacer agree with what it has told, and it has told that in order. -/
structure Paced (settings : Settings) (s : Session) : Prop where
  config : s.pacer.settings = settings
  inTurn : InTurn settings s.trace.latestFirst
  spaced : s.probes.IsChain fun later earlier =>
    settings.retryInterval.above (later.2 - earlier.2) = false
  last : s.pacer.lastAttempt = s.probes.head?.map Prod.snd
  attempts : s.pacer.attempts = s.probes.countP (saysYes ·.1)
  retries : s.pacer.attempts = s.trace.latestFirst.countP Event.isRetry
  absent : s.pacer.stopped = true → s.pacer.ticker = .absent

/-- Between two events of the pacer: its notes on the attempts stay, and the time. -/
structure OffPace (s t : Session) : Prop where
  settings : t.pacer.settings = s.pacer.settings
  lastAttempt : t.pacer.lastAttempt = s.pacer.lastAttempt
  attempts : t.pacer.attempts = s.pacer.attempts
  now : t.loop.now = s.loop.now
  unpaced : ∃ more, t.trace.latestFirst = more ++ s.trace.latestFirst ∧
    ∀ e ∈ more, e.isPaced = false

/-- From `s` to `t` the pacer stays as busy as it is, and while it is busy its notes stay; and the
session stays paced, and nobody stops it. -/
structure KeepsPace (settings : Settings) (s t : Session) : Prop where
  busy : t.pacer.busy = s.pacer.busy
  offPace : s.pacer.busy = true → OffPace s t
  paced : s.Paced settings → t.Paced settings
  stopped : s.Paced settings → t.pacer.stopped = true → s.pacer.stopped = true

theorem OffPace.probes (h : OffPace s t) : t.probes = s.probes := by
  obtain ⟨more, hm, hu⟩ := h.unpaced
  unfold Session.probes
  rw [hm]
  refine filterMap_of_untold fun e he => ?_
  have hunpaced := hu e he
  cases e with
  | probe => cases hunpaced
  | _ => rfl

theorem OffPace.countP_retry (h : OffPace s t) :
    t.trace.latestFirst.countP Event.isRetry = s.trace.latestFirst.countP Event.isRetry := by
  obtain ⟨more, hm, hu⟩ := h.unpaced
  have hnone : more.countP Event.isRetry = 0 := by
    refine List.countP_eq_zero.mpr fun e he => ?_
    have := hu e he
    cases e <;> simp_all [Event.isRetry, Event.isPaced]
  rw [hm, List.countP_append, hnone, Nat.zero_add]

theorem OffPace.find?_paced (h : OffPace s t) :
    t.trace.latestFirst.find? Event.isPaced = s.trace.latestFirst.find? Event.isPaced := by
  obtain ⟨more, hm, hu⟩ := h.unpaced
  have hnone : more.find? Event.isPaced = none := by
    refine List.find?_eq_none.mpr fun e he => ?_
    simp [hu e he]
  rw [hm, List.find?_append, hnone, Option.none_or]

theorem Paced.offPace (h : s.Paced settings) (ho : OffPace s t)
    (absent : t.pacer.stopped = true → t.pacer.ticker = .absent) : t.Paced settings where
  config := ho.settings.trans h.config
  inTurn := by
    obtain ⟨more, hm, hu⟩ := ho.unpaced
    rw [hm]
    exact h.inTurn.append hu
  spaced := by
    rw [ho.probes]
    exact h.spaced
  last := by rw [ho.lastAttempt, ho.probes, h.last]
  attempts := by rw [ho.attempts, ho.probes, h.attempts]
  retries := by rw [ho.attempts, ho.countP_retry, h.retries]
  absent

theorem offPace_of_apart (h : Apart s t) : OffPace s t :=
  ⟨by rw [h.pacer], by rw [h.pacer], by rw [h.pacer], h.now, h.unpaced⟩

instance : IsPreorder Session OffPace where
  refl s := ⟨rfl, rfl, rfl, rfl, ⟨[], rfl, List.forall_mem_nil _⟩⟩
  trans s t u h h' := by
    obtain ⟨more, hm, hu⟩ := h.unpaced
    obtain ⟨more', hm', hu'⟩ := h'.unpaced
    refine ⟨h'.settings.trans h.settings, h'.lastAttempt.trans h.lastAttempt,
      h'.attempts.trans h.attempts, h'.now.trans h.now, more' ++ more, ?_, ?_⟩
    · rw [hm', hm, List.append_assoc]
    · exact fun e he => (List.mem_append.mp he).elim (hu' e) (hu e)

instance : IsPreorder Session (KeepsPace settings) where
  refl s := ⟨rfl, fun _ => refl_of OffPace s, id, fun _ => id⟩
  trans _ _ _ h h' := ⟨h'.busy.trans h.busy,
    fun hb => trans_of OffPace (h.offPace hb) (h'.offPace (h.busy.trans hb)),
    fun hp => h'.paced (h.paced hp), fun hp hs => h.stopped hp (h'.stopped (h.paced hp) hs)⟩

/-- The pacer goes on as it was, but for its ticker. -/
theorem keepsPace_of_offPace (busy : t.pacer.busy = s.pacer.busy)
    (stopped : t.pacer.stopped = true → s.pacer.stopped = true) (ho : OffPace s t)
    (absent : s.pacer.ticker = .absent → t.pacer.stopped = true → t.pacer.ticker = .absent) :
    KeepsPace settings s t :=
  ⟨busy, fun _ => ho, fun hp => hp.offPace ho fun hs => absent (hp.absent (stopped hs)) hs,
    fun _ => stopped⟩

theorem keepsPace_of_apart (h : Apart s t) : KeepsPace settings s t :=
  keepsPace_of_offPace (by rw [h.pacer]) (by rw [h.pacer]; exact id) (offPace_of_apart h)
    (by rw [h.pacer]; exact fun ha _ => ha)

theorem overlooks_keepsPace : Overlooks (fun _ => True) (KeepsPace settings) :=
  overlooks_of_apart keepsPace_of_apart

theorem overlooksSetOut_keepsPace : OverlooksSetOut (KeepsPace settings) where
  sets s _ := keepsPace_of_apart (apart_movedTo .connecting nofun s)
  refuses s := keepsPace_of_offPace (t := s.telling (.refused s.phase .connecting)) rfl id
    ⟨rfl, rfl, rfl, rfl, [.refused s.phase .connecting], rfl, by simp [Event.isPaced]⟩ fun h _ => h
  dials _ _ _ := keepsPace_of_offPace rfl id ⟨rfl, rfl, rfl, rfl, [], rfl, nofun⟩ fun h _ => h

theorem scripted_of_all (s : Session) : s.Scripted fun _ => True := by
  have hall : ∀ script, Script.Within (fun _ => True) script :=
    script_within_of_all fun _ => trivial
  exact ⟨fun _ _ _ => hall _, fun _ _ _ => hall _, fun _ _ => hall _, fun _ _ _ => hall _,
    fun _ _ => hall _⟩

/-! ### Within a tick -/

/-- The pacer has noted the time and asked its probe. -/
def asked (s : Session) : Session :=
  { s.probed with pacer := { s.probed.pacer with lastAttempt := some s.loop.now } }

/-- The pacer makes the link connect, since the probe has said yes. -/
def retrying (s : Session) : Session :=
  { s.asked with
    pacer := { s.asked.pacer with attempts := s.pacer.attempts + 1 }
    trace := s.asked.trace.record (.retry s.pacer.settings.host s.pacer.settings.port) }

/-- The probe answers; that it failed is logged. -/
theorem probe_cases (s : Session) : ∃ v, Apart s.probed v ∧
    (saysYes s.nextAnswer = true → v = s.probed) ∧ probe s = .ok (saysYes s.nextAnswer) v := by
  unfold probe
  rw [get_bind_apply]
  cases ha : s.nextAnswer with
  | some value =>
    refine ⟨s.probed, refl_of Apart _, fun _ => rfl, ?_⟩
    unfold probed
    rw [ha]
    rfl
  | none =>
    let complaint : Event := .log .debug "Backend probe failed: process table unavailable"
    refine ⟨s.probed.telling complaint, .of_event (e := complaint) rfl rfl rfl rfl rfl rfl, nofun, ?_⟩
    unfold telling probed
    rw [ha]
    rfl

/-- The pacer may not try yet, or its probe does not say yes, or the link is made to
connect. -/
theorem maybeConnect_cases (ask : Request → Act Session Answer) (s : Session) :
    maybeConnect ask s = .ok () s ∨
    (s.mayRetry = true ∧ saysYes s.nextAnswer = false ∧
      ∃ v, Apart s.asked v ∧ maybeConnect ask s = .ok () v) ∨
    (s.mayRetry = true ∧ saysYes s.nextAnswer = true ∧
      maybeConnect ask s =
        connect ask s.pacer.settings.host s.pacer.settings.port s.retrying) := by
  unfold maybeConnect
  rw [get_bind_apply]
  cases hm : s.mayRetry with
  | false => exact .inl rfl
  | true =>
    obtain ⟨v, hv, hyes, hp⟩ :=
      probe_cases { s with pacer := { s.pacer with lastAttempt := some s.loop.now } }
    have hnoted : ∀ f : Bool → Act Session Unit, (onPacer (fun p =>
        { p with lastAttempt := some s.loop.now }) >>= fun _ => probe >>= f : Act Session Unit) s =
        f (saysYes s.nextAnswer) v := fun f => (bind_of_ok rfl).trans (bind_of_ok hp)
    refine .inr ?_
    cases hs : saysYes s.nextAnswer with
    | false =>
      refine .inl ⟨rfl, rfl, v, hv, ?_⟩
      rw [if_pos rfl, hnoted, hs]
      rfl
    | true =>
      refine .inr ⟨rfl, rfl, ?_⟩
      rw [if_pos rfl, hnoted, hs, hyes hs]
      rfl

theorem Paced.telling (h : s.Paced settings) {e : Event}
    (hf : e.Follows settings s.trace.latestFirst) (hp : e.probe? = none)
    (hr : e.isRetry = false) : (s.telling e).Paced settings := by
  have hprobes : (s.telling e).probes = s.probes := by
    simp [probes, Session.telling, Trace.record, hp]
  refine ⟨h.config, ⟨hf, h.inTurn⟩, hprobes ▸ h.spaced, hprobes ▸ h.last, hprobes ▸ h.attempts, ?_,
    h.absent⟩
  show _ = (e :: s.trace.latestFirst).countP _
  rw [List.countP_cons_of_neg (by simp [hr])]
  exact h.retries

/-- The probes are spaced when one more is asked because it is time. -/
theorem Paced.spaced_cons (h : s.Paced settings) (hm : s.mayRetry = true) (answer : Option Json) :
    ((answer, s.loop.now) :: s.probes).IsChain fun later earlier =>
      settings.retryInterval.above (later.2 - earlier.2) = false := by
  have hspaced := h.spaced
  have hlast := h.last
  cases hprobes : s.probes with
  | nil => exact .singleton _
  | cons earlier rest =>
    rw [hprobes] at hspaced hlast
    unfold mayRetry at hm
    rw [hlast, h.config] at hm
    exact .cons_cons (by simpa using hm) hspaced

theorem Paced.asked (h : s.Paced settings) (hm : s.mayRetry = true)
    (hno : saysYes s.nextAnswer = false) (hup : ProbesUpon s.trace.latestFirst) :
    s.asked.Paced settings where
  config := h.config
  inTurn := ⟨hup, h.inTurn⟩
  spaced := h.spaced_cons hm s.nextAnswer
  last := rfl
  attempts := by
    show _ = ((s.nextAnswer, s.loop.now) :: s.probes).countP _
    rw [List.countP_cons_of_neg (by simp [hno])]
    exact h.attempts
  retries := by
    show _ = (Event.probe s.nextAnswer s.loop.now :: s.trace.latestFirst).countP _
    rw [List.countP_cons_of_neg (by simp [Event.isRetry])]
    exact h.retries
  absent := h.absent

theorem Paced.retrying (h : s.Paced settings) (hm : s.mayRetry = true)
    (hyes : saysYes s.nextAnswer = true) (hup : ProbesUpon s.trace.latestFirst) :
    s.retrying.Paced settings where
  config := h.config
  inTurn := by
    obtain ⟨rest, hrest, hfind⟩ := hup
    refine ⟨⟨by rw [h.config], by rw [h.config], s.nextAnswer, s.loop.now, rest, ?_, hyes, hfind⟩,
      ⟨rest, hrest, hfind⟩, h.inTurn⟩
    rw [← hrest]
    rfl
  spaced := h.spaced_cons hm s.nextAnswer
  last := rfl
  attempts := by
    show s.pacer.attempts + 1 = ((s.nextAnswer, s.loop.now) :: s.probes).countP _
    rw [List.countP_cons_of_pos (by simp [hyes]), h.attempts]
  retries := by
    show s.pacer.attempts + 1 = (Event.retry _ _ :: Event.probe _ _ :: s.trace.latestFirst).countP _
    rw [List.countP_cons_of_pos (by simp [Event.isRetry]),
      List.countP_cons_of_neg (by simp [Event.isRetry]), h.retries]
  absent := h.absent

/-! ### A tick -/

/-- The session is paced, its pacer has not been stopped, and a tick is under way if it is
`busy`. -/
structure Unstopped (settings : Settings) (busy : Bool) (s : Session) : Prop where
  paced : s.Paced settings
  busy : s.pacer.busy = busy
  going : s.pacer.stopped = false

theorem Unstopped.keepsPace {busy : Bool} (h : s.Unstopped settings busy)
    (hg : KeepsPace settings s t) : t.Unstopped settings busy :=
  ⟨hg.paced h.paced, hg.busy.trans h.busy,
    Bool.eq_false_iff.mpr fun hs => Bool.eq_false_iff.mp h.going (hg.stopped h.paced hs)⟩

theorem Unstopped.telling {busy : Bool} (h : s.Unstopped settings busy) {e : Event}
    (hf : e.Follows settings s.trace.latestFirst) (hp : e.probe? = none)
    (hr : e.isRetry = false) : (s.telling e).Unstopped settings busy :=
  ⟨h.paced.telling hf hp hr, h.busy, h.going⟩

/-- The requests of listeners keep pace. -/
def AsksOn (settings : Settings) (ask : Request → Act Session Answer) : Prop :=
  ∀ q s, Leads (KeepsPace settings) (ask q) s

theorem keeps_of_leads {α : Type} {R : Session → Session → Prop} {act : Act Session α}
    (h : ∀ s, Leads R act s) : Keeps (fun _ => True) R act :=
  fun s t ht _ => ⟨(scripted_of_all t).attended, h s t ht⟩

theorem AsksOn.keeps (ha : AsksOn settings ask) (q : Request)
    (_ : Request.Within (fun _ => True) q) : Keeps (fun _ => True) (KeepsPace settings) (ask q) :=
  keeps_of_leads (ha q)

theorem leads_of_keeps {α : Type} {R : Session → Session → Prop} {act : Act Session α}
    (h : Keeps (fun _ => True) R act) (s : Session) : Leads R act s :=
  fun t ht => (h s t ht (scripted_of_all s).attended).2

theorem lands_of_keeps {α : Type} {act : Act Session α}
    (h : Keeps (fun _ => True) (KeepsPace settings) act) (hs : s.Unstopped settings true) :
    act.Lands (Unstopped settings true) s :=
  fun t ht => hs.keepsPace (leads_of_keeps h s t ht)

variable (ha : AsksOn settings ask)
include ha

theorem lands_maybeConnect (hs : s.Unstopped settings true) (hup : ProbesUpon s.trace.latestFirst) :
    (maybeConnect ask).Lands (Unstopped settings true) s := by
  rcases maybeConnect_cases ask s with e | ⟨hm, hno, v, hv, e⟩ | ⟨hm, hyes, e⟩
  · exact lands_of_ok e hs
  · have hasked : Unstopped settings true s.asked :=
      ⟨hs.paced.asked hm hno hup, hs.busy, hs.going⟩
    exact lands_of_ok e (hasked.keepsPace (keepsPace_of_apart hv))
  · have hretrying : Unstopped settings true s.retrying :=
      ⟨hs.paced.retrying hm hyes hup, hs.busy, hs.going⟩
    have hconnect := keeps_connect overlooks_keepsPace ha.keeps
      overlooksSetOut_keepsPace s.pacer.settings.host s.pacer.settings.port
    exact lands_congr e (lands_of_keeps hconnect hretrying)

theorem lands_upkeep (hs : s.Unstopped settings true)
    (hpacing : s.trace.latestFirst.find? Event.isPaced = some .pacing) :
    (upkeep ask).Lands (Unstopped settings true) s := by
  have hk := keeps_tick overlooks_keepsPace ha.keeps
  refine Lands.bind (lands_of_keeps hk hs) fun _ v hv hmid => ?_
  have hoff : OffPace s v := (leads_of_keeps hk s v (ends_of_ok hv)).offPace hs.busy
  have htold : (v.telling (.upkept v.phase)).Unstopped settings true := hmid.telling trivial rfl rfl
  refine lands_congr (bind_of_ok (get_apply v)) (lands_congr (bind_of_ok (tell_apply _ v)) ?_)
  split
  · rename_i hp
    refine lands_maybeConnect ha htold ⟨v.trace.latestFirst, ?_, ?_⟩
    · show Event.upkept v.phase :: _ = _
      rw [hp]
    · rw [hoff.find?_paced, hpacing]
  · exact lands_of_ok (pure_apply () _) htold

theorem lands_tickOnce (hs : s.Unstopped settings true) :
    (tickOnce ask).Lands (Unstopped settings true) s := by
  have hpacing : (s.telling .pacing).Unstopped settings true := hs.telling trivial rfl rfl
  unfold tickOnce
  refine lands_congr (bind_of_ok (tell_apply _ s)) (Lands.bind ?_ fun _ v _ hv => ?_)
  · refine Lands.rescue (fun _ h => h) (lands_upkeep ha hpacing rfl) fun e v _ hv => ?_
    exact lands_of_keeps (Keeps.bind (keeps_log overlooks_keepsPace _ _) fun _ =>
      keeps_disconnect overlooks_keepsPace ha.keeps false) hv
  · exact lands_of_keeps (Keeps.bind (keeps_poll overlooks_keepsPace ha.keeps) fun _ =>
      Keeps.pure ()) hv

omit ha in
theorem paceTick_of_busy (h : s.pacer.busy = true) :
    paceTick ask s = .ok false (s.telling (.log .debug "Skipping overlapping tick")) := by
  unfold paceTick
  rw [get_bind_apply, if_pos h]
  rfl

/-- A tick is under way. -/
def busied (s : Session) : Session :=
  { s with pacer := { s.pacer with busy := true } }

omit ha in
/-- A tick is made if none is under way and the pacer has not been stopped. -/
theorem paceTick_apply (hb : s.pacer.busy = false) (hs : s.pacer.stopped = false) :
    paceTick ask s = (tickOnce ask >>= fun _ => pure true).ensuring unbusied s.busied := by
  unfold paceTick
  rw [get_bind_apply, if_neg (by simp [hb])]
  unfold exclusively
  rw [bind_of_ok (show onPacer _ s = .ok () s.busied from rfl)]
  unfold ensuring
  rw [get_bind_apply, if_neg (show ¬ s.busied.pacer.stopped = true by simp [busied, hs])]
  rfl

/-- A tick of the pacer takes a paced session to another. -/
theorem keepsPace_paceTick (s : Session) : Leads (KeepsPace settings) (paceTick ask) s := by
  cases hb : s.pacer.busy with
  | true =>
    refine leads_of_ok (paceTick_of_busy hb) (keepsPace_of_apart ?_)
    exact .of_event (e := .log .debug "Skipping overlapping tick") rfl rfl rfl rfl rfl rfl
  | false =>
    cases hs : s.pacer.stopped with
    | true => exact leads_of_ok (paceTick_of_stopped hs hb) (refl_of (KeepsPace settings) s)
    | false =>
      intro t ht
      unfold Ends at ht
      rw [paceTick_apply hb hs] at ht
      obtain ⟨v, hv, rfl⟩ := ends_ensuring ht
      have hmid : s.Paced settings → v.Unstopped settings true := fun hp => by
        have hbusied : s.busied.Unstopped settings true := ⟨{ hp with }, rfl, hs⟩
        exact lands_tickOnce ha hbusied v (ends_of_bind_pure hv)
      refine ⟨hb.symm, fun h => absurd h (by simp [hb]), fun hp => { (hmid hp).paced with },
        fun hp h => absurd h ?_⟩
      rw [Bool.not_eq_true]
      exact (hmid hp).going

/-! ### Requests -/

omit ha in
theorem leads_startTicker (s : Session) : Leads (KeepsPace settings) startTicker s := by
  unfold startTicker
  rw [leads_get_bind]
  split
  · refine leads_of_ok rfl (keepsPace_of_offPace rfl nofun ⟨rfl, rfl, rfl, rfl, [_], rfl, ?_⟩ nofun)
    simp [Event.isPaced]
  · exact Leads.pure () s

omit ha in
theorem leads_cancelTicker (s : Session) : Leads (KeepsPace settings) cancelTicker s := by
  unfold cancelTicker
  rw [leads_get_bind]
  have hstill : ∀ {t : Session}, t.pacer = { s.pacer with ticker := .cancelling } →
      t.loop.now = s.loop.now → t.trace = s.trace → s.pacer.ticker ≠ .absent →
      KeepsPace settings s t := by
    intro t hp hn ht hne
    exact keepsPace_of_offPace (by rw [hp]) (by rw [hp]; exact id) ⟨by rw [hp], by rw [hp], by rw [hp],
      hn, [], by rw [ht]; rfl, nofun⟩ fun habsent => absurd habsent hne
  split
  · rename_i htick
    exact leads_of_ok rfl (hstill rfl rfl rfl (by rw [htick]; nofun))
  · rename_i htick
    exact leads_of_ok rfl (hstill rfl rfl rfl (by rw [htick]; nofun))
  · rename_i htick
    exact leads_of_ok rfl (hstill rfl rfl rfl (by rw [htick]; nofun))
  · exact Leads.pure true s
  · exact Leads.pure false s
  · exact Leads.pure false s
  · exact Leads.throw _ s

omit ha in
theorem keepsPace_ofPeer {request : Request} (h : request.isPeers = true) (s : Session) :
    Leads (KeepsPace settings) (answer ask request) s := by
  refine leads_ofPeer (fun v i f => ?_) (fun v level text => keepsPace_of_apart ?_) h s
  · exact keepsPace_of_offPace rfl id ⟨rfl, rfl, rfl, rfl, [], rfl, nofun⟩ fun h _ => h
  · exact .of_event (e := .log level text) rfl rfl rfl rfl rfl rfl

/-- A request takes a paced session to another, if the requests of listeners do. -/
theorem keepsPace_answer (request : Request) (s : Session) :
    Leads (KeepsPace settings) (answer ask request) s := by
  refine leads_of_keeps (keeps_answer overlooks_keepsPace ha.keeps
    (fun _ => script_within_of_all (fun _ => trivial) _)
    (keeps_connect overlooks_keepsPace ha.keeps overlooksSetOut_keepsPace)
    (fun h => keeps_of_leads (keepsPace_ofPeer h)) ?_ ?_ ?_) s
  · exact keeps_of_leads (keepsPace_paceTick ha)
  · exact keeps_of_leads leads_startTicker
  · exact keeps_of_leads leads_cancelTicker

omit ha in
/-- However deep listeners nest requests. -/
theorem keepsPace_perform (depth : Nat) : AsksOn settings (perform depth) := by
  induction depth with
  | zero => exact fun _ s => Leads.throw _ s
  | succ depth ih => exact fun q s => keepsPace_answer ih q s

/-! ### The ticker -/

omit ha

theorem Paced.congr (h : s.Paced settings) (pacer : t.pacer = s.pacer) (trace : t.trace = s.trace) :
    t.Paced settings where
  config := by rw [pacer, h.config]
  inTurn := by rw [trace]; exact h.inTurn
  spaced := by unfold probes; rw [trace]; exact h.spaced
  last := by unfold probes; rw [pacer, trace]; exact h.last
  attempts := by unfold probes; rw [pacer, trace]; exact h.attempts
  retries := by rw [pacer, trace]; exact h.retries
  absent := by rw [pacer]; exact h.absent

theorem Unstopped.ticking {busy : Bool} (h : s.Unstopped settings busy) (ticker : Ticker) :
    (s.ticking ticker).Unstopped settings busy where
  paced := { h.paced with absent := fun hs => absurd hs (by simp [Session.ticking, h.going]) }
  busy := h.busy
  going := h.going

/-- The pacer of a ticker that there is has not been stopped. -/
theorem Paced.unstopped (h : s.Paced settings) (ht : s.pacer.ticker ≠ .absent) :
    s.Unstopped settings s.pacer.busy :=
  ⟨h, rfl, Bool.eq_false_iff.mpr fun hs => ht (h.absent hs)⟩

theorem Unstopped.arms {busy : Bool} {x : Float} (h : s.Unstopped settings busy) (ha : Arms x s t) :
    t.Unstopped settings busy := by
  have htold : (s.telling (.wait s.interval s.loop.now)).Unstopped settings busy :=
    h.telling trivial rfl rfl
  have hticking := htold.ticking t.pacer.ticker
  exact ⟨hticking.paced.congr ha.pacer ha.trace, ha.pacer ▸ hticking.busy,
    ha.pacer ▸ hticking.going⟩

theorem lands_awaitTick {busy : Bool} (h : s.Unstopped settings busy) :
    awaitTick.Lands (Unstopped settings busy) s := by
  rcases awaitTick_cases s with ⟨-, e⟩ | ⟨x, t, -, e, ha⟩
  · exact lands_of_ok e (h.ticking .failed)
  · exact lands_of_ok e (h.arms ha)

/-- A paced session stays paced, and as busy as it is. -/
def StaysPaced (settings : Settings) (s t : Session) : Prop :=
  s.Paced settings → t.Paced settings ∧ t.pacer.busy = s.pacer.busy

instance : IsPreorder Session (StaysPaced settings) where
  refl _ hp := ⟨hp, rfl⟩
  trans _ _ _ h h' hp := ⟨(h' (h hp).1).1, ((h' (h hp).1).2).trans (h hp).2⟩

theorem KeepsPace.staysPaced (h : KeepsPace settings s t) : StaysPaced settings s t :=
  fun hp => ⟨h.paced hp, h.busy⟩

/-- A run of the ticker. One that has been cancelled ends, and one that is not there does
nothing. -/
theorem staysPaced_runTicker (ha : AsksOn settings ask) (s : Session) :
    Leads (StaysPaced settings) (runTicker ask) s := by
  have hticks : s.Unstopped settings s.pacer.busy → (do
      onPacer fun p => { p with ticker := .ticking }
      let _ ← paceTick ask
      awaitTick : Act Session Unit).Lands (Unstopped settings s.pacer.busy) s := fun hs => by
    refine Lands.bind (lands_of_ok rfl (hs.ticking .ticking)) fun _ v _ hv => ?_
    refine Lands.bind (fun u hu => hv.keepsPace (keepsPace_paceTick ha v u hu)) fun _ u _ hu => ?_
    exact lands_awaitTick hu
  unfold runTicker
  rw [leads_get_bind]
  intro t ht hp
  suffices t.Unstopped settings s.pacer.busy ∨ t = s by
    rcases this with h | rfl
    · exact ⟨h.paced, h.busy⟩
    · exact ⟨hp, rfl⟩
  split at ht
  · rename_i htick
    exact .inl (hticks (hp.unstopped (by rw [htick]; nofun)) t ht)
  · rename_i htick
    exact .inl (hticks (hp.unstopped (by rw [htick]; nofun)) t ht)
  · rename_i htick
    have hs : s.Unstopped settings s.pacer.busy := hp.unstopped (by rw [htick]; nofun)
    let v := (s.ticking .ended).disarmed .ticker
    have hv : v.Unstopped settings s.pacer.busy :=
      ⟨(hs.ticking .ended).paced.congr rfl rfl, rfl, hs.going⟩
    rw [(ends_ok_iff (v := v) (a := ()) rfl).mp ht]
    exact .inl hv
  · exact .inr ((ends_ok_iff (pure_apply () s)).mp ht)

/-! ### Runs -/

theorem Paced.stopping (h : s.Paced settings) : s.stopping.Paced settings :=
  { h with absent := fun _ => rfl }

theorem paced_start (link pacer : Settings) (store : Store) (outcomes : List Outcome)
    (probe : Option (List (Option Json))) :
    (start link pacer store outcomes probe).Paced pacer where
  config := rfl
  inTurn := trivial
  spaced := .nil
  last := rfl
  attempts := rfl
  retries := rfl
  absent _ := rfl

theorem keepsPace_disconnect (depth : Nat) (notify : Bool) (s : Session) :
    Leads (KeepsPace settings) (disconnect (perform depth) notify) s :=
  leads_of_keeps (keeps_disconnect overlooks_keepsPace (keepsPace_perform depth).keeps notify) s

/-- The stopping of the pacer leaves the session paced. -/
theorem staysPaced_stop (depth : Nat) (hb : s.pacer.busy = false) :
    Leads (StaysPaced settings) (stop (perform depth)) s := by
  intro t ht hp
  by_cases hf : s.pacer.ticker = .failed
  · have hfailed : stop (perform depth) s = .error .overflow s := by
      unfold stop
      rw [get_bind_apply, if_pos hf]
      rfl
    rcases ht with ⟨a, ht⟩ | ⟨e, -, ht⟩ <;> rw [hfailed] at ht <;> cases ht
    exact ⟨hp, rfl⟩
  have hdropped : ∀ v, (disconnect (perform depth) true).Ends s.stopping v →
      v.unbusied.Paced settings := fun v hv =>
    { (keepsPace_disconnect depth true s.stopping v hv).paced hp.stopping with }
  unfold Ends at ht
  rw [stop_apply _ hf] at ht
  cases hd : disconnect (perform depth) true s.stopping with
  | error e v =>
    simp only [hd] at ht
    rcases ht with ⟨a, ht⟩ | ⟨e', he, ht⟩ <;> cases ht
    exact ⟨hdropped v (.inr ⟨e, he, hd⟩), hb.symm⟩
  | ok a v =>
    simp only [hd] at ht
    have hv := hdropped v (ends_of_ok hd)
    have hlog : Leads (KeepsPace settings) (log .info "Tick scheduler stopped") v.unbusied :=
      leads_of_keeps (keeps_log overlooks_keepsPace _ _) _
    have h := hlog t ht
    exact ⟨h.paced hv, h.busy.trans hb.symm⟩

theorem fit_of_unpaced {link pacer : Settings} {store : Store} {outcomes : List Outcome}
    {probe : Option (List (Option Json))}
    (h : Unpaced (fun _ => True) (start link pacer store outcomes probe) s) :
    s.Fit fun _ => True :=
  (fit_start link pacer store probe fun _ _ q _ => within_of_all (fun _ => trivial) q).run h.run

/-- At every point of a run in which nobody but the pacer changes its notes it is paced, and
no tick is under way. -/
theorem paced_of_unpaced {link pacer : Settings} {store : Store} {outcomes : List Outcome}
    {probe : Option (List (Option Json))}
    (h : Unpaced (fun _ => True) (start link pacer store outcomes probe) s) :
    s.Paced pacer ∧ s.pacer.busy = false := by
  induction h with
  | refl => exact ⟨paced_start link pacer store outcomes probe, rfl⟩
  | @tail v w hrun hm ih =>
    obtain ⟨hp, hb⟩ := ih
    obtain ⟨move, hn, hm⟩ := hm
    have hv : v.Fit fun _ => True := fit_of_unpaced hrun
    suffices StaysPaced pacer v w from ⟨(this hp).1, (this hp).2.trans hb⟩
    cases move with
    | ask request =>
      obtain ⟨-, depth, hm⟩ := hm
      exact (keepsPace_perform depth request v w hm).staysPaced
    | turn =>
      obtain ⟨depth, hm⟩ := hm
      have hask : ∀ q, Request.Within (fun _ => True) q →
          Keeps (fun _ => True) (StaysPaced pacer) (perform depth q) := fun q _ =>
        keeps_of_leads fun s t ht => (keepsPace_perform depth q s t ht).staysPaced
      exact (leads_turn_apart (fun h => (keepsPace_of_apart h).staysPaced) hask hask
        (fun ready _ => keeps_of_leads (staysPaced_runTicker (keepsPace_perform depth)) _) hv w hm
        (scripted_of_all v).attended).2
    | alarm timer => exact (keepsPace_of_apart (tidy_of_alarm hv.scripted hm.2).toApart).staysPaced
    | clock now =>
      cases hm
      exact fun hp => ⟨hp.congr rfl rfl, rfl⟩
    | pace pacer => exact absurd rfl (hn pacer)
    | stop =>
      obtain ⟨depth, hm⟩ := hm
      exact staysPaced_stop depth hb w hm

/-! ### Ticks that ask no probe -/

/-- Work in which the link takes no step leaves it in its phase. -/
theorem phase_of_moves {A : Request → Prop} (h : Work A s t) (hm : t.moves = s.moves) :
    t.phase = s.phase := by
  refine (h.keeps_steps (P := fun steps p => s.moves <:+ steps ∧ (steps = s.moves → p = s.phase))
    (fun {steps p q} _ hu => ⟨hu.1.trans (List.suffix_cons _ _), fun he => ?_⟩)
    ⟨List.suffix_rfl, fun _ => rfl⟩).2 hm
  have hle := hu.1.length_le
  rw [← he, List.length_cons] at hle
  omega

/-- Since `u`, while a tick is under way, no probe has been asked unless the link has taken a
step. -/
structure Unprobed (u t : Session) : Prop where
  fit : t.Fit fun _ => True
  moves : u.moves <:+ t.moves
  still : t.moves = u.moves → t.phase = u.phase ∧ t.pacer.busy = true ∧ t.probes = u.probes

theorem Unprobed.refl (hs : s.Fit fun _ => True) (hb : s.pacer.busy = true) : Unprobed s s :=
  ⟨hs, List.suffix_rfl, fun _ => ⟨rfl, hb, rfl⟩⟩

/-- What is between two points with the same steps of the link has them too. -/
theorem Unprobed.moves_eq (h : Unprobed u s) (hs : s.moves <:+ t.moves) (ht : t.moves = u.moves) :
    s.moves = u.moves :=
  (h.moves.eq_of_length_le (ht ▸ hs.length_le)).symm

theorem Unprobed.work (h : Unprobed u s) (hw : Work (fun _ => True) s t)
    (hprobes : s.pacer.busy = true → t.pacer.busy = true ∧ t.probes = s.probes) : Unprobed u t where
  fit := h.fit.work hw
  moves := h.moves.trans (moves_of_work hw)
  still hm := by
    have hs := h.moves_eq (moves_of_work hw) hm
    obtain ⟨hphase, hbusy, hsame⟩ := h.still hs
    obtain ⟨hbusy', hsame'⟩ := hprobes hbusy
    exact ⟨(phase_of_moves hw (hm.trans hs.symm)).trans hphase, hbusy', hsame'.trans hsame⟩

theorem Unprobed.telling (h : Unprobed u s) {e : Event} (he : e.isPlain = true)
    (hp : e.probe? = none) : Unprobed u (s.telling e) := by
  refine h.work (.of_alike (alike_record s he)) fun hb => ⟨hb, ?_⟩
  simp [probes, Session.telling, Trace.record, hp]

end Session
end DiagnosticWatch
