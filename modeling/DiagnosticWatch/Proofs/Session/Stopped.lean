/-
# A pacer that is stopped stays stopped

When the pacer has been stopped, the link is down and nobody connects unless
somebody asks for that, so that the link stays down. The listeners that run
while the connection is dropped find a pacer that is stopped already: whatever
they ask for, but to connect or to start the ticker, makes no dial and leaves
the pacer as it is (`Session.Rests`). From then on a tick of the pacer changes
nothing.

Key definitions: `Request.Passive`, `Session.Resting`, `Session.Rests`.
Key theorems: `Session.letsRest_perform`, `Session.rested_of_stop`,
`Session.rested_of_unpaced`, `Session.stays_down`.
-/
import DiagnosticWatch.Proofs.Session.Down

namespace DiagnosticWatch

/-- The request leaves the store and the change signal to the link, and has nobody
connect. -/
def Request.Passive : Request → Prop
  | .put .. | .mark | .fire | .connect .. | .connectUnlooped .. | .start => False
  | _ => True

theorem Request.Passive.quiet {q : Request} (h : q.Passive) : q.Quiet := by
  cases q <;> trivial

namespace Session

open Act

variable {s t u w : Session} {d : Nat} {dial : Dial} {link : Settings} {α : Type}
  {ask : Request → Act Session Answer}

/-- The link is disconnected, and the pacer is stopped and has no ticker. -/
structure Resting (s : Session) : Prop where
  fit : s.Fit Request.Passive
  phase : s.phase = .disconnected
  stopped : s.pacer.stopped = true
  ticker : s.pacer.ticker = .absent

/-- The session rests still: no dial has been made, and the pacer is as it was. -/
structure Rested (s t : Session) : Prop where
  resting : t.Resting
  dials : t.network.dials.size = s.network.dials.size
  pacer : t.pacer = s.pacer

/-- A session that rests in `s` rests in `t`. -/
def Rests (s t : Session) : Prop :=
  s.Resting → Rested s t

instance : IsPreorder Session Rests where
  refl _ hs := ⟨hs, rfl, rfl⟩
  trans _ _ _ h h' hs := by
    have ht := h hs
    have hu := h' ht.resting
    exact ⟨hu.resting, hu.dials.trans ht.dials, hu.pacer.trans ht.pacer⟩

theorem rests_of (fit : s.Fit Request.Passive → t.Fit Request.Passive) (phase : t.phase = s.phase)
    (dials : t.network.dials.size = s.network.dials.size) (pacer : t.pacer = s.pacer) : Rests s t :=
  fun hs =>
    ⟨⟨fit hs.fit, phase.trans hs.phase, pacer ▸ hs.stopped, pacer ▸ hs.ticker⟩, dials, pacer⟩

theorem rests_of_change (h : Change Request.Passive s t) (phase : t.phase = s.phase)
    (pacer : t.pacer = s.pacer) : Rests s t :=
  rests_of (·.change h) phase (by rw [dials_of_change h]) pacer

theorem rests_of_alike (h : Alike s t) (pacer : t.pacer = s.pacer) : Rests s t :=
  rests_of_change (.plain h) h.phase pacer

/-- What the link does at once, but for setting out, needs nothing that a fit session lacks. -/
theorem Fit.stroke {A : Request → Prop} (hs : s.Fit A) (h : Stroke s t) : t.Fit A := by
  cases h with
  | tells | signals | stores | takesOut | silent | unheld | calm =>
    exact ⟨{ hs.scripted with }, hs.held⟩
  | callsOff h =>
    obtain ⟨u, hu, tells, -⟩ := callOff_ok s
    cases hu.symm.trans h
    exact hs.tells tells
  | leaves => exact hs.left
  | forgets => exact hs.forgotten
  | marks => exact ⟨hs.scripted.marked, hs.held⟩

/-- What is done aside from the pacer lets a session rest. -/
theorem Rested.aside (hs : Rested w s) (h : Aside Request.Passive s t)
    (fit : t.Fit Request.Passive) : Rested w t where
  resting := ⟨fit, h.phase.elim (fun h => h.1.trans hs.resting.phase) id,
    h.pacer ▸ hs.resting.stopped, h.pacer ▸ hs.resting.ticker⟩
  dials := h.dials.trans hs.dials
  pacer := h.pacer.trans hs.pacer

theorem Rested.change (hs : Rested w s) (h : Change Request.Passive s t) (phase : t.phase = s.phase)
    (pacer : t.pacer = s.pacer) : Rested w t :=
  have ht := rests_of_change h phase pacer hs.resting
  ⟨ht.resting, ht.dials.trans hs.dials, ht.pacer.trans hs.pacer⟩

theorem Rested.alike (hs : Rested w s) (h : Alike s t) (pacer : t.pacer = s.pacer) : Rested w t :=
  hs.change (.plain h) h.phase pacer

/-! ### Acts that let a session rest -/

/-- Wherever the act begins, a session that rests does so where it ends. -/
def LetsRest (act : Act Session α) : Prop :=
  ∀ s, Leads Rests act s

theorem leads_of_rested {act : Act Session α}
    (h : Preserves (Rested s) (Ordinarily (Rested s)) act s) : Leads Rests act s :=
  fun _ ht hs => h.ends (fun _ _ he hq => hq he) ⟨hs, rfl, rfl⟩ ht

theorem letsRest_iff {act : Act Session α} :
    LetsRest act ↔ ∀ w s, Preserves (Rested w) (Ordinarily (Rested w)) act s := by
  refine ⟨fun h w s hs => ?_, fun h s => leads_of_rested (h s s)⟩
  have hends : ∀ t, act.Ends s t → Rested w t := fun t ht =>
    have hrest := h s t ht hs.resting
    ⟨hrest.resting, hrest.dials.trans hs.dials, hrest.pacer.trans hs.pacer⟩
  exact ⟨fun a t ht => hends t (ends_of_ok ht), fun e t ht he => hends t (.inr ⟨e, he, ht⟩)⟩

/-- Every passive request that a listener makes lets a session rest. -/
def AsksAtRest (ask : Request → Act Session Answer) : Prop :=
  ∀ q, Request.Within Request.Passive q → LetsRest (ask q)

theorem outlasts_rested (ha : AsksAtRest ask) (w : Session) :
    Outlasts Request.Passive (Rested w) (Ordinarily (Rested w)) ask where
  stroke h hs := hs.aside h.aside (hs.resting.fit.stroke h)
  attended hs := hs.resting.fit.scripted.attended
  raised _ hs _ := hs
  caught he hs := hs he
  asks q hq := letsRest_iff.mp (ha q hq) w

theorem letsRest_disconnect (ha : AsksAtRest ask) (notify : Bool) :
    LetsRest (disconnect ask notify) :=
  letsRest_iff.mpr fun w => preserves_disconnect (outlasts_rested ha w) notify

theorem letsRest_script (ha : AsksAtRest ask) {script : List (Reaction Request)}
    (h : Script.Within Request.Passive script) : LetsRest (Script.run Request.name ask script) :=
  letsRest_iff.mpr fun w =>
    preserves_play (outlasts_rested ha w).attends (outlasts_rested ha w).asks h

/-- What comes after a connection has been left, by a stopped pacer without a ticker. -/
theorem rested_of_leave (ha : AsksAtRest ask) (hs : s.Fit Request.Passive)
    (stopped : s.pacer.stopped = true) (ticker : s.pacer.ticker = .absent)
    (h : (leave ask).Ends s t) : Rested s t := by
  have hleft := aside_left (A := Request.Passive) s
  have hrest : Rested s s.left := by
    refine ⟨⟨hs.left, phase_left s, ?_, ?_⟩, hleft.dials, hleft.pacer⟩ <;> rwa [hleft.pacer]
  unfold Ends at h
  rw [leave_apply] at h
  have hafter := preserves_afterLeaving (outlasts_rested ha s) s
  exact hafter.ends (fun _ _ he hq => hq he) hrest h

/-- Whoever disconnects while the pacer is stopped leaves the session at rest, unless the
transport refuses the word of farewell. -/
theorem rested_of_disconnect (ha : AsksAtRest ask) (hs : s.Fit Request.Passive)
    (stopped : s.pacer.stopped = true) (ticker : s.pacer.ticker = .absent) {notify : Bool}
    (h : (disconnect ask notify).Ends s t) :
    Rested s t ∨ s.writeFault? = some .refused ∧ ∃ e, disconnect ask notify s = .error e t := by
  rcases disconnect_cases ask hs notify with ⟨words, v, tells, dials, pacer, e⟩ | ⟨hf, v, e⟩
  · unfold Ends at h
    rw [e] at h
    have hrest := rested_of_leave ha (hs.tells tells) (pacer ▸ stopped) (pacer ▸ ticker) h
    exact .inl ⟨hrest.resting, hrest.dials.trans dials, hrest.pacer.trans pacer⟩
  · refine .inr ⟨hf, .write .refused, ?_⟩
    rcases h with ⟨a, h⟩ | ⟨e', -, h⟩ <;> rw [e] at h <;> cases h
    exact e

/-! ### Requests -/

/-- A tick of a pacer that is stopped, and not in the middle of another, changes nothing. -/
theorem paceTick_of_stopped (h : s.pacer.stopped = true) (hb : s.pacer.busy = false) :
    paceTick ask s = .ok false s := by
  have hidle : { s with pacer := { s.pacer with busy := false, stopped := true } } = s := by
    rw [← hb, ← h]
  unfold paceTick
  rw [get_bind_apply, if_neg (by simp [hb])]
  simp only [exclusively, onPacer, bind_apply, modify_apply, ensuring, get_apply, h, ↓reduceIte,
    pure_apply]
  exact congrArg _ hidle

/-- A stopped pacer skips its tick, whether or not another is under way. -/
theorem preserves_paceTick_rested (ask : Request → Act Session Answer) (w s : Session) :
    Preserves (Rested w) (Ordinarily (Rested w)) (paceTick ask) s := by
  refine .of_holds fun hs => ?_
  cases hb : s.pacer.busy with
  | false => exact preserves_of_ok (paceTick_of_stopped hs.resting.stopped hb) id
  | true =>
    unfold paceTick
    refine .get ?_
    rw [if_pos hb]
    exact .bind (preserves_tell fun hs => hs.alike (alike_record s rfl) rfl) fun _ t => .pure false t

/-- There is no ticker to cancel. -/
theorem preserves_cancelTicker_rested (w s : Session) :
    Preserves (Rested w) (Ordinarily (Rested w)) cancelTicker s := by
  refine .of_holds fun hs => preserves_of_error (v := s) (e := .noTicker) ?_ fun hs _ => hs
  unfold cancelTicker
  rw [get_bind_apply, hs.resting.ticker]
  rfl

theorem answering_rested (ha : AsksAtRest ask) (w : Session) :
    Answering Request.Passive Request.Passive (Rested w) (Ordinarily (Rested w)) ask where
  raised _ hs _ := hs
  carried h hs he := h (hs he)
  log _ _ hs := hs.alike (alike_record _ rfl) rfl
  unloops _ hs := hs.alike (alike_loop _ rfl rfl) rfl
  listens known _ _ hl hg hs := hs.change (.listen _ known hl hg) rfl rfl
  sets _ _ _ hs := hs.alike (alike_connections _ Array.size_modify) rfl
  peer _ _ h := preserves_ofPeer
    (fun _ _ hs => hs.alike (alike_connections _ Array.size_modify) rfl)
    (fun _ _ hs => hs.alike (alike_record _ rfl) rfl) h
  connect _ _ hk := hk.elim False.elim False.elim
  drop notify := preserves_disconnect (outlasts_rested ha w) notify
  tick := preserves_tick (outlasts_rested ha w).looks
  send code _ _ :=
    .bind (preserves_tellOfHeld fun _ _ => (outlasts_rested ha w).tells rfl) fun _ =>
      (outlasts_rested ha w).sends code
  put _ _ hk := hk.elim
  marks hk := hk.elim
  poll := (outlasts_rested ha w).poll
  fire hk := hk.elim
  pace _ := preserves_paceTick_rested ask w
  start hk := hk.elim
  cancel _ := preserves_cancelTicker_rested w

/-- However deep listeners nest requests, a passive one lets a session rest. -/
theorem letsRest_perform (depth : Nat) : AsksAtRest (perform depth) := by
  induction depth with
  | zero => exact fun _ _ _ => Leads.throw _ _
  | succ depth ih =>
    rintro q ⟨self, script⟩
    exact letsRest_iff.mpr fun w => preserves_answer (answering_rested ih w) self script

/-! ### Turns, alarms and the stopping itself -/

theorem rests_of_tidy (h : Tidy Request.Passive s t) : Rests s t :=
  rests_of h.fit (by rw [phase, h.link]; rfl) h.dials h.pacer

theorem rests_of_resumes (hd : s.dial? d = some dial) (h : Resumes Request.Passive d dial s t) :
    Rests s t := by
  intro hs
  obtain ⟨hstays, hdials, hpacer⟩ := stays_of_resumes hs.fit.scripted hs.phase hd h
  exact ⟨⟨hs.fit.resumes hd h, hstays.phase, hpacer ▸ hs.stopped, hpacer ▸ hs.ticker⟩,
    hdials, hpacer⟩

/-- A turn of the loop lets a session rest. The ticker that may still be ready has gone. -/
theorem letsRest_turn (depth : Nat) : LetsRest (turn (perform depth)) := by
  intro s t ht hs
  suffices h : Rests s t from h hs
  rcases turn_cases ht with ⟨-, rfl⟩ | ⟨job, ready, hr, hj⟩
  · exact refl_of Rests t
  have hpop : Rests s (s.popped ready) := rests_of_tidy (tidy_popped hr)
  refine trans_of Rests hpop ?_
  rcases job.cases_errand with ⟨d, errand, rfl⟩ | ⟨script, rfl⟩ | rfl
  · have hfit := (hpop hs).resting.fit
    cases hd : s.dial? d with
    | none =>
      rw [(ends_ok_iff (runJob_of_absent (s := s.popped ready) errand hd)).mp hj]
      exact refl_of Rests _
    | some dial =>
      by_cases he : errand = .resumeDial
      · subst he
        exact rests_of_resumes hd (resumes_of_resumeDial (works_perform depth) hfit hd hj)
      · exact rests_of_tidy (tidy_errand hfit.scripted hd he hj)
  · have hw : Script.Within Request.Passive script := hs.fit.scripted.ready script (by simp [hr])
    have hscript := letsRest_script (letsRest_perform depth) hw (s.popped ready)
    exact Leads.rescue (fun _ h => h) hscript (fun _ _ _ _ _ => Leads.pure () _) t hj
  · have hgone : runJob (perform depth) .ticker (s.popped ready) = .ok () (s.popped ready) := by
      show runTicker (perform depth) (s.popped ready) = _
      unfold runTicker
      rw [get_bind_apply, show (s.popped ready).pacer.ticker = .absent from hs.ticker]
      rfl
    rw [(ends_ok_iff hgone).mp hj]
    exact refl_of Rests _

/-- The pacer is stopped, before the connection is dropped. -/
def stopping (s : Session) : Session :=
  { s.disarmed .ticker with
    pacer := { s.pacer with ticker := .absent, busy := true, stopped := true } }

/-- No tick is under way. -/
def unbusied (s : Session) : Session :=
  { s with pacer := { s.pacer with busy := false } }

theorem stop_apply (ask : Request → Act Session Answer) (h : s.pacer.ticker ≠ .failed) :
    stop ask s = match disconnect ask true s.stopping with
      | .ok _ v => log .info "Tick scheduler stopped" v.unbusied
      | .error e v => .error e v.unbusied := by
  have hstop : stop ask s = ((disconnect ask true).ensuring unbusied >>= fun _ =>
      log .info "Tick scheduler stopped" : Act Session Unit) s.stopping := by
    unfold stop
    rw [get_bind_apply, if_neg h]
    rfl
  rw [hstop, bind_apply, ensuring]
  cases disconnect ask true s.stopping <;> rfl

theorem Fit.stopping {A : Request → Prop} (hs : s.Fit A) : s.stopping.Fit A := by
  have hdisarmed := (tidy_disarmed .ticker s).fit hs
  exact ⟨{ hdisarmed.scripted with }, hdisarmed.held⟩

theorem rests_of_log (level : Level) (text : String) (h : (log level text).Ends s t) :
    Rests s t := by
  rw [(ends_ok_iff (tell_apply _ s)).mp h]
  exact rests_of_alike (alike_record s rfl) rfl

/-- A session that rested while a tick was under way rests when that is over. -/
theorem Resting.unbusied (h : s.Resting) : s.unbusied.Resting where
  fit := h.fit.change (.plain (alike_pacer s _))
  phase := h.phase
  stopped := h.stopped
  ticker := h.ticker

/-- When the pacer has been stopped the link is down, and the session rests. -/
theorem rested_of_stop (depth : Nat) (hs : s.Fit Request.Passive)
    (h : stop (perform depth) s = .ok () t) :
    t.Resting ∧ t.pacer.busy = false ∧ t.Clean ∧
      t.network.dials.size = s.network.dials.size := by
  by_cases hf : s.pacer.ticker = .failed
  · unfold stop at h
    rw [get_bind_apply, if_pos hf] at h
    cases h
  rw [stop_apply _ hf] at h
  cases hd : disconnect (perform depth) true s.stopping with
  | error e v =>
    rw [hd] at h
    cases h
  | ok a v =>
    simp only [hd] at h
    rcases rested_of_disconnect (letsRest_perform depth) hs.stopping rfl rfl (ends_of_ok hd) with
      hrest | ⟨-, e, he⟩
    · have hclean : v.Clean := (down_of_disconnect (works_perform depth)
        (fun _ hq => Request.Passive.quiet hq) hs.stopping hd hrest.dials).2
      have hlog := rests_of_log _ _ (ends_of_ok h) hrest.resting.unbusied
      refine ⟨hlog.resting, by rw [hlog.pacer]; rfl, ?_, hlog.dials.trans hrest.dials⟩
      cases h
      exact hclean.congr rfl rfl rfl
    · rw [hd] at he
      cases he

/-- Whoever stops a session that rests changes nothing of it. -/
theorem Resting.stop (hs : s.Resting) (hb : s.pacer.busy = false) (depth : Nat)
    (h : (stop (perform depth)).Ends s t) : Rested s t := by
  have hpacer : s.stopping.unbusied.pacer = s.pacer := by
    show { s.pacer with ticker := .absent, busy := false, stopped := true } = s.pacer
    rw [← hs.ticker, ← hb, ← hs.stopped]
  have hstopping : s.stopping.Resting := ⟨hs.fit.stopping, hs.phase, rfl, rfl⟩
  have hrest : ∀ v, (disconnect (perform depth) true).Ends s.stopping v → Rested s v.unbusied := by
    intro v hv
    have hd := letsRest_disconnect (letsRest_perform depth) true s.stopping v hv hstopping
    refine ⟨hd.resting.unbusied, hd.dials, ?_⟩
    rw [← hpacer]
    show { v.pacer with busy := false } = { s.stopping.pacer with busy := false }
    rw [hd.pacer]
  unfold Ends at h
  rw [stop_apply _ (by rw [hs.ticker]; nofun)] at h
  cases hd : disconnect (perform depth) true s.stopping with
  | ok a v =>
    simp only [hd] at h
    have hv := hrest v (ends_of_ok hd)
    have hlog := rests_of_log _ _ h hv.resting
    exact ⟨hlog.resting, hlog.dials.trans hv.dials, hlog.pacer.trans hv.pacer⟩
  | error e v =>
    simp only [hd] at h
    rcases h with ⟨a, h⟩ | ⟨e', he, h⟩ <;> cases h
    exact hrest v (.inr ⟨e, he, hd⟩)

/-! ### Runs -/

theorem Resting.moves (hs : s.Resting) (hb : s.pacer.busy = false) {move : Move}
    (hn : ∀ pacer, move ≠ .pace pacer) (h : Moves Request.Passive move s t) : Rested s t := by
  cases move with
  | ask request =>
    obtain ⟨hw, depth, h⟩ := h
    exact letsRest_perform depth request hw s t h hs
  | turn =>
    obtain ⟨depth, h⟩ := h
    exact letsRest_turn depth s t h hs
  | alarm timer => exact rests_of_tidy (tidy_of_alarm hs.fit.scripted h.2) hs
  | clock now =>
    cases h
    exact rests_of_alike (alike_loop s rfl rfl) rfl hs
  | pace pacer => exact absurd rfl (hn pacer)
  | stop =>
    obtain ⟨depth, h⟩ := h
    exact hs.stop hb depth h

/-- A session that rests does so at every point of a run in which nobody asks to connect or
to start the ticker. -/
theorem rested_of_unpaced (hs : s.Resting) (hb : s.pacer.busy = false)
    (h : Unpaced Request.Passive s t) : Rested s t := by
  induction h with
  | refl => exact ⟨hs, rfl, rfl⟩
  | @tail v w _ hm ih =>
    obtain ⟨move, hn, hm⟩ := hm
    have hw : Rested v w := ih.resting.moves (by rw [ih.pacer, hb]) hn hm
    exact ⟨hw.resting, hw.dials.trans ih.dials, hw.pacer.trans ih.pacer⟩

/-- Since `s`, when it had disconnected, the link stayed so, nothing was written, stored or
signalled, and when nothing is ready, every connection that was opened has been closed,
provided that the time of a dial can be limited or none was opened at all. -/
structure DownSince (link : Settings) (s t : Session) : Prop where
  phase : t.phase = .disconnected
  empty : t.link.store.isEmpty = true
  told : ∃ closed : List Nat, t.told = closed.map Event.close ++ s.told
  closed : t.loop.ready = [] → ((∀ i < t.network.connections.size, t.closes i = 1) ↔
    link.connectTimeout.toFloat?.isSome ∨ t.network.connections.size = 0)

theorem downSince_of_run {A : Request → Prop} (hA : ∀ q, A q → q.Quiet) (hs : s.Fit A)
    (hsound : s.Sound link) (hp : s.phase = .disconnected) (hclean : s.Clean) (h : Run A s t)
    (size : t.network.dials.size = s.network.dials.size) : DownSince link s t := by
  obtain ⟨hsound', hstays⟩ := stays_of_run hA hs hsound hp h size
  obtain ⟨hclean', htold⟩ := hstays.silent hclean
  have hapart : t.phase ≠ .connected := by rw [hstays.phase]; nofun
  exact ⟨hstays.phase, (hclean' hapart).1, htold, closed_iff_of_apart hsound' hapart⟩

/-- A link that has disconnected stays down in every run in which nobody connects, where a
dial is made whenever somebody does. A pacer that has been stopped keeps it down in every run
in which nobody asks to connect or to start the ticker, and its ticks change nothing. -/
theorem stays_down (link pacer : Settings) (store : Store) (outcomes : List Outcome)
    (probe : Option (List (Option Json)))
    (h : Run (fun _ => True) (start link pacer store outcomes probe) s) :
    (∀ depth notify t u, s.Scripted Request.Quiet →
      disconnect (perform depth) notify s = .ok () t → Run Request.Quiet t u →
      u.network.dials.size = s.network.dials.size → DownSince link t u) ∧
    ∀ depth t u, s.Scripted Request.Passive → stop (perform depth) s = .ok () t →
      Unpaced Request.Passive t u →
      DownSince link t u ∧ ∀ depth, paceTick (perform depth) u = .ok false u := by
  have hs : s.Sound link := sound_of_run (fun o _ => script_within_of_all (fun _ => trivial) o.race) h
  constructor
  · intro depth notify t u hq hd hrun hsize
    have hfit : s.Fit Request.Quiet := ⟨hq, hs.held⟩
    have hw : Work Request.Quiet s t :=
      works_disconnect (works_perform depth) notify s t (ends_of_ok hd) hfit
    have hle := dials_le_of_work hw
    have hle' := dials_le_of_run (hfit.work hw) hrun
    obtain ⟨hp, hclean⟩ :=
      down_of_disconnect (works_perform depth) (fun _ hq => hq) hfit hd (by omega)
    exact downSince_of_run (fun _ hq => hq) (hfit.work hw) (hs.work hw).sound hp hclean hrun
      (by omega)
  · intro depth t u hq hstop hrun
    have hfit : s.Fit Request.Passive := ⟨hq, hs.held⟩
    obtain ⟨hrest, hb, hclean, -⟩ := rested_of_stop depth hfit hstop
    have hw : Work Request.Passive s t :=
      works_stop (works_perform depth) s t (ends_of_ok hstop) hfit
    have hu := rested_of_unpaced hrest hb hrun
    refine ⟨downSince_of_run (fun _ hq => Request.Passive.quiet hq) hrest.fit (hs.work hw).sound
      hrest.phase hclean hrun.run hu.dials, fun depth => ?_⟩
    exact paceTick_of_stopped hu.resting.stopped (by rw [hu.pacer, hb])

/-- An attempt that opens a connection although it has been cancelled. -/
theorem stays_down_of_disconnect :
    let s := (settleAll (perform maxDepth) 10).leaves
      ((perform maxDepth (.connect "127.0.0.1" (.int 27099))).leaves
        (start {} {} .empty [⟨.opens, .int 1, .none, [], true, []⟩] none))
    let t := (disconnect (perform maxDepth) false).leaves s
    let u := (settleAll (perform maxDepth) 10).leaves t
    let v := (stop (perform maxDepth)).leaves s
    s.phase = .connecting ∧ DownSince {} t u ∧ u.closes 0 = 1 ∧
      paceTick (perform maxDepth) v = .ok false v := by
  intro s t u v
  let s₀ := start {} {} .empty [⟨.opens, .int 1, .none, [], true, []⟩] none
  have hstart : ∀ A : Request → Prop, s₀.Fit A := by
    intro A
    refine fit_start {} {} .empty none fun o ho => ?_
    cases List.mem_singleton.mp ho
    exact Script.within_nil A
  have hrun : ∀ A : Request → Prop, A (.connect "127.0.0.1" (.int 27099)) → Run A s₀ s := by
    intro A hA
    refine trans_of (Run A) (run_of_move (.ask (.connect "127.0.0.1" (.int 27099)))
      ⟨Request.within_plain hA rfl, maxDepth, ends_leaves (by decide +kernel)⟩) ?_
    exact leads_settleAll maxDepth 10 _ s (ends_leaves (by decide +kernel))
  have hquiet : s.Fit Request.Quiet := (hstart _).run (hrun _ trivial)
  have hpassive : s.Scripted Request.Passive := by
    have hrace : s.network.dials.all (·.attempt.outcome.race.isEmpty) = true := by decide +kernel
    refine ⟨nofun, nofun, nofun, fun d dial hd => ?_, nofun⟩
    have hm : dial ∈ s.network.dials := Array.mem_of_getElem? hd
    rw [List.isEmpty_iff.mp (Array.all_eq_true_iff_forall_mem.mp hrace dial hm)]
    exact Script.within_nil _
  have hd : disconnect (perform maxDepth) false s = .ok () t := ok_leaves (by decide +kernel)
  have hrest : Run Request.Quiet t u :=
    leads_settleAll maxDepth 10 t u (ends_leaves (by decide +kernel))
  have hstop : stop (perform maxDepth) s = .ok () v := ok_leaves (by decide +kernel)
  obtain ⟨hdisconnected, hstopped⟩ := stays_down {} {} .empty _ none (hrun (fun _ => True) trivial)
  have hdown : DownSince {} t u :=
    hdisconnected maxDepth false t u hquiet.scripted hd hrest (by decide +kernel)
  have hclosed := (hdown.closed (List.isEmpty_iff.mp (by decide +kernel))).mpr
    (.inl (by decide +kernel))
  have hopened : u.network.connections.size = 1 := by decide +kernel
  exact ⟨by decide +kernel, hdown, hclosed 0 (by omega),
    (hstopped maxDepth v v hpassive hstop .refl).2 maxDepth⟩

end Session
end DiagnosticWatch
