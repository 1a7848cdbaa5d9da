/-
# The account of a session

`Session.Sound` says of every dial of a session what `Dial.Sound` says of one,
and that every connection was opened by one dial. What concerns one dial alone
(`Session.Concerns`) keeps the account of all others, so that only the account
of that dial is left to be kept.

Key definitions: `Session.Sound`, `Session.spent`, `Session.fee`,
`Session.Kept`, `Session.Concerns`, `Session.Beside`.
Key theorems: `Session.Sound.touch`, `Session.Sound.revise`,
`Session.Sound.attempt_ends`, `Session.Sound.congr`.
-/
import DiagnosticWatch.Proofs.Session.DialInvariant
import DiagnosticWatch.Proofs.Session.Turns

namespace DiagnosticWatch

/-- The errand that a job does, with its dial. -/
def Job.errand? : Job → Option (Nat × Errand)
  | .beginDial d => some (d, .beginDial)
  | .resumeDial d => some (d, .resumeDial)
  | .beginAttempt d => some (d, .beginAttempt)
  | .resumeAttempt d => some (d, .resumeAttempt)
  | .attemptEnded d => some (d, .attemptEnded)
  | .shieldDone d => some (d, .shieldDone)
  | .releaseDial d => some (d, .releaseDial)
  | .settleDial d => some (d, .settleDial)
  | .closeOpened d => some (d, .closeOpened)
  | .race _ | .ticker => none

theorem Job.errand?_job (d : Nat) (errand : Errand) :
    (errand.job d).errand? = some (d, errand) := by
  cases errand <;> rfl

theorem Job.errand?_of_other {job : Job} (h : ∀ d errand, job ≠ Errand.job d errand) :
    job.errand? = none := by
  rcases job.cases_errand with ⟨d, errand, rfl⟩ | ⟨script, rfl⟩ | rfl
  · exact absurd rfl (h d errand)
  · rfl
  · rfl

namespace Session

open Act

variable {A : Request → Prop} {s t u v : Session} {d : Nat} {dial new : Dial}

/-! ### The account of a session -/

/-- How often an errand is ready for a dial. -/
def errands (s : Session) (d : Nat) (e : Errand) : Nat :=
  s.loop.ready.countP fun job => job.errand? = some (d, e)

/-- Whether the timer of an attempt is armed. -/
def Rings (s : Session) (d : Nat) : Prop :=
  ∃ timer ∈ s.loop.timers, timer.alarm = .attempt d

/-- How often a connection has been taken care of: it was closed, or the link has it. -/
def spent (s : Session) (i : Nat) : Nat :=
  s.closes i + if s.link.writesTo = some i then 1 else 0

/-- The attempt of the dial `d` has opened connection `i`. -/
def Opened (s : Session) (d i : Nat) : Prop :=
  ∃ dial, s.dial? d = some dial ∧ dial.attempt.stage = .ended (.opened i)

/-- How often a link takes care of a connection: once, if the time of its dials can be
limited. -/
def fee (link : Settings) : Nat :=
  if link.connectTimeout.toFloat?.isSome then 1 else 0

/-- Nothing is due for a dial that there is not, what is due for the others is right, and
every connection was opened by one dial. -/
structure Sound (link : Settings) (s : Session) : Prop where
  settings : s.link.settings = link
  held : s.Held
  dials : ∀ d dial, s.dial? d = some dial →
    dial.Sound (fee link) (s.errands d) (s.Rings d) s.spent
  absent : ∀ d, s.dial? d = none → (∀ e, s.errands d e = 0) ∧ ¬ s.Rings d
  owner : ∀ i < s.network.connections.size, ∃ d, s.Opened d i
  once : ∀ d d' i, s.Opened d i → s.Opened d' i → d = d'
  known : ∀ d i, s.Opened d i → i < s.network.connections.size
  unspent : ∀ i, s.network.connections.size ≤ i → s.spent i = 0

/-- From `s` to `t` the account is kept, and what was opened stays opened. -/
structure Kept (link : Settings) (s t : Session) : Prop where
  sound : t.Sound link
  opened : ∀ d i, s.Opened d i → t.Opened d i

theorem Sound.kept {link : Settings} (hs : s.Sound link) : Kept link s s :=
  ⟨hs, fun _ _ h => h⟩

theorem Kept.trans {link : Settings} (h : Kept link s t) (h' : Kept link t u) : Kept link s u :=
  ⟨h'.sound, fun d i ho => h'.opened d i (h.opened d i ho)⟩

theorem errands_map (d d' : Nat) (es : List Errand) (e : Errand) :
    (es.map (Errand.job d)).countP (fun job => job.errand? = some (d', e)) =
      if d' = d then es.count e else 0 := by
  rw [List.countP_map]
  by_cases h : d' = d
  · subst h
    rw [if_pos rfl]
    refine List.countP_congr fun e' _ => ?_
    simp [Job.errand?_job]
  · rw [if_neg h, List.countP_eq_zero]
    intro e' _
    simp [Job.errand?_job, Ne.symm h]

theorem errands_revise (s : Session) (d : Nat) (new : Dial) (es : List Errand) :
    (s.revise d new (es.map (Errand.job d))).errands d = Errand.more es (s.errands d) := by
  funext e
  show List.countP _ (s.loop.ready ++ _) = _
  rw [List.countP_append, errands_map, if_pos rfl]
  rfl

theorem errands_revise_of_ne (s : Session) {d d' : Nat} (new : Dial) (es : List Errand)
    (h : d' ≠ d) : (s.revise d new (es.map (Errand.job d))).errands d' = s.errands d' := by
  funext e
  show List.countP _ (s.loop.ready ++ _) = _
  rw [List.countP_append, errands_map, if_neg h]
  rfl

/-- What was due is the errand that was taken out, and what is left. -/
theorem errands_eq_more {errand : Errand} {ready : List Job}
    (h : s.loop.ready = errand.job d :: ready) :
    s.errands d = Errand.more [errand] ((s.popped ready).errands d) := by
  funext e
  unfold errands popped Errand.more
  rw [h, List.countP_cons, Job.errand?_job, List.count_singleton]
  by_cases he : errand = e
  · simp [he]
  · simp [he]

theorem errands_popped_of_errand {errand e : Errand} {ready : List Job}
    (h : s.loop.ready = errand.job d :: ready) (he : e ≠ errand) :
    (s.popped ready).errands d e = s.errands d e := by
  rw [errands_eq_more h, Errand.more, List.count_singleton, if_neg (by simpa using he.symm)]
  rfl

theorem errands_popped_of_ne {job : Job} {ready : List Job} {d' : Nat}
    (h : s.loop.ready = job :: ready) (hj : ∀ e, job.errand? ≠ some (d', e)) :
    (s.popped ready).errands d' = s.errands d' := by
  funext e
  unfold errands popped
  rw [h, List.countP_cons]
  simp [hj e]

theorem errands_racing (s : Session) (script : List (Reaction Request)) (d : Nat) :
    (s.racing script).errands d = s.errands d := by
  funext e
  unfold racing
  split
  · rfl
  · show List.countP _ (s.loop.ready ++ _) = _
    rw [List.countP_append]
    rfl

/-! ### Changes that concern one dial -/

/-- From `s` to `t`, nothing that is due for another dial than `d` changes. -/
structure Concerns (d : Nat) (s t : Session) : Prop where
  dials : ∀ d', d' ≠ d → t.dial? d' = s.dial? d'
  errands : ∀ d', d' ≠ d → t.errands d' = s.errands d'
  rings : ∀ d', d' ≠ d → t.Rings d' → s.Rings d'

theorem Concerns.trans (h : Concerns d s t) (h' : Concerns d t u) : Concerns d s u where
  dials d' hd := (h'.dials d' hd).trans (h.dials d' hd)
  errands d' hd := (h'.errands d' hd).trans (h.errands d' hd)
  rings d' hd hr := h.rings d' hd (h'.rings d' hd hr)

/-- Besides, the dial stays as it is, and so do the link and the connections. -/
structure Beside (d : Nat) (s t : Session) : Prop extends Concerns d s t where
  dial : t.dial? d = s.dial? d
  link : t.link = s.link
  connections : t.network.connections = s.network.connections
  closes : ∀ i, t.closes i = s.closes i

theorem Beside.refl (d : Nat) (s : Session) : Beside d s s :=
  ⟨⟨fun _ _ => rfl, fun _ _ => rfl, fun _ _ h => h⟩, rfl, rfl, rfl, fun _ => rfl⟩

theorem Beside.trans (h : Beside d s t) (h' : Beside d t u) : Beside d s u where
  toConcerns := h.toConcerns.trans h'.toConcerns
  dial := h'.dial.trans h.dial
  link := h'.link.trans h.link
  connections := h'.connections.trans h.connections
  closes i := (h'.closes i).trans (h.closes i)

theorem Beside.spent (h : Beside d s t) : t.spent = s.spent := by
  funext i
  unfold Session.spent
  rw [h.closes, h.link]

theorem beside_popped {errand : Errand} {ready : List Job}
    (h : s.loop.ready = errand.job d :: ready) : Beside d s (s.popped ready) := by
  refine ⟨⟨fun _ _ => rfl, fun d' hd => ?_, fun _ _ h => h⟩, rfl, rfl, rfl, fun _ => rfl⟩
  refine errands_popped_of_ne h fun e => ?_
  rw [Job.errand?_job]
  simp [Ne.symm hd]

theorem rings_of_disarmed {alarm : Alarm} {d' : Nat} (h : (s.disarmed alarm).Rings d') :
    s.Rings d' := by
  obtain ⟨timer, hm, ht⟩ := h
  exact ⟨timer, (List.mem_filter.mp hm).1, ht⟩

theorem not_rings_disarmed (d : Nat) (s : Session) : ¬ (s.disarmed (.attempt d)).Rings d := by
  rintro ⟨timer, hm, ht⟩
  have := (List.mem_filter.mp hm).2
  simp [ht] at this

theorem beside_disarmed (d : Nat) (alarm : Alarm) (s : Session) : Beside d s (s.disarmed alarm) :=
  ⟨⟨fun _ _ => rfl, fun _ _ => rfl, fun _ _ h => rings_of_disarmed h⟩, rfl, rfl, rfl, fun _ => rfl⟩

theorem rings_armedFor {x : Float} {alarm : Alarm} {d' : Nat} :
    (s.armedFor x alarm).Rings d' ↔ s.Rings d' ∨ alarm = .attempt d' := by
  unfold Rings armedFor
  simp [or_and_right, exists_or]

theorem beside_armedFor {alarm : Alarm} (x : Float) (h : ∀ d', d' ≠ d → alarm ≠ .attempt d')
    (s : Session) : Beside d s (s.armedFor x alarm) := by
  refine ⟨⟨fun _ _ => rfl, fun _ _ => rfl, fun d' hd hr => ?_⟩, rfl, rfl, rfl, fun _ => rfl⟩
  exact (rings_armedFor.mp hr).resolve_right (h d' hd)

theorem beside_racing (d : Nat) (script : List (Reaction Request)) (s : Session) :
    Beside d s (s.racing script) := by
  have hd : ∀ d', (s.racing script).dial? d' = s.dial? d' := fun d' => by simp
  have he := errands_racing s script
  unfold racing at hd he ⊢
  split
  · exact Beside.refl d s
  · rename_i hs
    simp only [hs, Bool.false_eq_true, ↓reduceIte] at hd he
    exact ⟨⟨fun d' _ => hd d', fun d' _ => he d', fun _ _ h => h⟩, rfl, rfl, rfl, fun _ => rfl⟩

theorem rings_racing {script : List (Reaction Request)} :
    (s.racing script).Rings d ↔ s.Rings d := by
  unfold racing
  split <;> exact Iff.rfl

theorem beside_asking (d : Nat) (dial : Dial) (s : Session) : Beside d s (s.asking dial) :=
  ⟨⟨fun _ _ => rfl, fun _ _ => rfl, fun _ _ h => h⟩, rfl, rfl, rfl, fun _ => rfl⟩

theorem beside_tellingOff (d : Nat) (s : Session) : Beside d s (s.tellingOff d) :=
  ⟨⟨fun _ _ => rfl, fun _ _ => rfl, fun _ _ h => rings_of_disarmed h⟩, rfl, rfl, rfl, fun _ => rfl⟩

theorem concerns_revise (hd : s.dial? d = some dial) (new : Dial) (es : List Errand) :
    Concerns d s (s.revise d new (es.map (Errand.job d))) where
  dials d' hne := by
    rw [dial?_revise hd, if_neg hne]
  errands d' hne := errands_revise_of_ne s new es hne
  rings _ _ h := h

/-! ### The account is kept -/

variable {link : Settings}

/-- Nothing is due to the dials that are not there. -/
theorem Concerns.absent (hc : Concerns d s t) (hn : t.dial? d = some new) (hs : s.Sound link)
    (d' : Nat) (hd' : t.dial? d' = none) : (∀ e, t.errands d' e = 0) ∧ ¬ t.Rings d' := by
  have h : d' ≠ d := by
    intro h
    rw [h, hn] at hd'
    cases hd'
  rw [hc.dials d' h] at hd'
  obtain ⟨he, hr⟩ := hs.absent d' hd'
  rw [hc.errands d' h]
  exact ⟨he, fun hr' => hr (hc.rings d' h hr')⟩

/-- What is due to the other dials stays right, if nobody took care of what they have
opened. -/
theorem Concerns.dials_sound (hc : Concerns d s t) (hn : t.dial? d = some new) (hs : s.Sound link)
    (ok : new.Sound (fee link) (t.errands d) (t.Rings d) t.spent)
    (spent : ∀ d' i, d' ≠ d → s.Opened d' i → t.spent i = s.spent i) (d' : Nat) (dial' : Dial)
    (hd' : t.dial? d' = some dial') :
    dial'.Sound (fee link) (t.errands d') (t.Rings d') t.spent := by
  by_cases h : d' = d
  · subst h
    rw [hn] at hd'
    cases hd'
    exact ok
  · rw [hc.dials d' h] at hd'
    rw [hc.errands d' h]
    exact (hs.dials d' dial' hd').weaken (hc.rings d' h) fun i hi => spent d' i h ⟨dial', hd', hi⟩

/-- One dial changes and opens nothing, and nothing is taken care of but what it has
opened. -/
theorem Sound.touch (hs : s.Sound link) (hd : s.dial? d = some dial) (hc : Concerns d s t)
    (hn : t.dial? d = some new) (settings : t.link.settings = s.link.settings) (held : t.Held)
    (size : t.network.connections.size = s.network.connections.size)
    (opened : ∀ i, new.attempt.stage = .ended (.opened i) ↔ dial.attempt.stage = .ended (.opened i))
    (spent : ∀ i, dial.attempt.stage ≠ .ended (.opened i) → t.spent i = s.spent i)
    (ok : new.Sound (fee link) (t.errands d) (t.Rings d) t.spent) : Kept link s t := by
  have ho : ∀ d' i, t.Opened d' i ↔ s.Opened d' i := by
    intro d' i
    unfold Opened
    by_cases h : d' = d
    · subst h
      simp [hn, hd, opened]
    · rw [hc.dials d' h]
  exact {
    opened := fun d' i h => (ho d' i).mpr h
    sound.settings := settings.trans hs.settings
    sound.held := held
    sound.dials := hc.dials_sound hn hs ok fun d' i h ho' => spent i fun hi =>
      h (hs.once d' d i ho' ⟨dial, hd, hi⟩)
    sound.absent := hc.absent hn hs
    sound.owner := by
      intro i hi
      obtain ⟨d', h⟩ := hs.owner i (size ▸ hi)
      exact ⟨d', (ho d' i).mpr h⟩
    sound.once := fun d₁ d₂ i h₁ h₂ => hs.once d₁ d₂ i ((ho d₁ i).mp h₁) ((ho d₂ i).mp h₂)
    sound.known := by
      intro d' i h
      rw [size]
      exact hs.known d' i ((ho d' i).mp h)
    sound.unspent := by
      intro i hi
      rw [size] at hi
      rw [spent i fun h => absurd (hs.known d i ⟨dial, hd, h⟩) (by omega)]
      exact hs.unspent i hi }

/-- What is due to a dial when an errand for it has been taken out. -/
theorem Sound.due (hs : s.Sound link) {errand : Errand} {ready : List Job}
    (h : s.loop.ready = errand.job d :: ready) (hd : s.dial? d = some dial) :
    dial.Sound (fee link) (Errand.more [errand] ((s.popped ready).errands d)) (s.Rings d)
      s.spent := by
  rw [← errands_eq_more h]
  exact hs.dials d dial hd

/-- A dial changes, beside what concerns it alone. -/
theorem Sound.revise (hs : s.Sound link) (hd : s.dial? d = some dial) (hv : Beside d s v)
    (es : List Errand)
    (opened : ∀ i, new.attempt.stage = .ended (.opened i) ↔ dial.attempt.stage = .ended (.opened i))
    (ok : new.Sound (fee link) (Errand.more es (v.errands d)) (v.Rings d) s.spent) :
    Kept link s (v.revise d new (es.map (Errand.job d))) := by
  have hd' : v.dial? d = some dial := hv.dial.trans hd
  have hsp : (v.revise d new (es.map (Errand.job d))).spent = s.spent := hv.spent
  refine hs.touch hd (hv.toConcerns.trans (concerns_revise hd' new es))
    (by rw [dial?_revise hd', if_pos rfl]) (congrArg Link.settings hv.link) ?_
    (congrArg Array.size hv.connections) opened (fun i _ => congrFun hsp i) ?_
  · exact hs.held.congr_link (t := v.revise d new (es.map (Errand.job d))) hv.link
  · rw [hsp, errands_revise]
    exact ok

/-- An attempt opens a connection. -/
theorem Sound.opens (hs : s.Sound link) (hd : s.dial? d = some dial) (hc : Concerns d s t)
    (hn : t.dial? d = some new) (hl : t.link = s.link)
    (size : t.network.connections.size = s.network.connections.size + 1)
    (closed : ∀ i, dial.attempt.stage ≠ .ended (.opened i))
    (opened : new.attempt.stage = .ended (.opened s.network.connections.size))
    (spent : t.spent = s.spent)
    (ok : new.Sound (fee link) (t.errands d) (t.Rings d) t.spent) : Kept link s t := by
  have ho : ∀ d' i, t.Opened d' i ↔ s.Opened d' i ∨ (d' = d ∧ i = s.network.connections.size) := by
    intro d' i
    unfold Opened
    by_cases h : d' = d
    · subst h
      simp [hn, hd, opened, closed, eq_comm]
    · rw [hc.dials d' h]
      simp [h]
  exact {
    opened := fun d' i h => (ho d' i).mpr (.inl h)
    sound.settings := by
      rw [hl]
      exact hs.settings
    sound.held := hs.held.congr_link hl
    sound.dials := hc.dials_sound hn hs ok fun _ i _ _ => congrFun spent i
    sound.absent := hc.absent hn hs
    sound.owner := by
      intro i hi
      rw [size] at hi
      by_cases h : i = s.network.connections.size
      · exact ⟨d, (ho d i).mpr (.inr ⟨rfl, h⟩)⟩
      · obtain ⟨d', h'⟩ := hs.owner i (by omega)
        exact ⟨d', (ho d' i).mpr (.inl h')⟩
    sound.once := by
      intro d₁ d₂ i h₁ h₂
      rcases (ho d₁ i).mp h₁ with h₁ | ⟨rfl, rfl⟩ <;> rcases (ho d₂ _).mp h₂ with h₂ | ⟨rfl, h₂⟩
      · exact hs.once d₁ d₂ _ h₁ h₂
      · have := hs.known d₁ _ h₁
        omega
      · have := hs.known d₂ _ h₂
        omega
      · rfl
    sound.known := by
      intro d' i h
      rw [size]
      rcases (ho d' i).mp h with h | ⟨-, rfl⟩
      · have := hs.known d' i h
        omega
      · omega
    sound.unspent := by
      intro i hi
      rw [spent]
      exact hs.unspent i (by omega) }

theorem spent_opening (outcome : Outcome) (s : Session) :
    (s.opening outcome).spent = s.spent := by
  have hcl : ∀ i, (s.opening outcome).closes i = s.closes i := by
    intro i
    unfold closes opening
    cases outcome.socket <;> simp [Receiver.attachEvents, Trace.record, Event.closes]
  funext i
  unfold Session.spent
  rw [hcl]
  rfl

theorem closes_closed (i j : Nat) (s : Session) :
    (s.closed i).closes j = s.closes j + if j = i then 1 else 0 := by
  unfold closes closed Trace.record
  rw [List.countP_cons]
  simp [Event.closes, eq_comm]

theorem spent_closed (i j : Nat) (s : Session) :
    (s.closed i).spent j = s.spent j + if j = i then 1 else 0 := by
  have hw : (s.closed i).link = s.link := rfl
  unfold Session.spent
  rw [closes_closed, hw]
  omega

/-- A running attempt comes to an end. -/
theorem Sound.attempt_ends (hs : s.Sound link) (hd : s.dial? d = some dial)
    (hr : dial.attempt.stage.isRunning = true) (hv : Beside d s v)
    (hl : ∀ e, e ≠ .beginAttempt → e ≠ .resumeAttempt → v.errands d e = s.errands d e)
    (hb : v.errands d .beginAttempt = 0) (hg : v.errands d .resumeAttempt = 0)
    (hq : ¬ v.Rings d) (ht : AttemptEnds d dial v t) : Kept link s t := by
  have hok := hs.dials d dial hd
  have hno : ∀ i, dial.attempt.stage ≠ .ended (.opened i) := by
    intro i hi
    rw [hi] at hr
    cases hr
  cases ht with
  | closed result why script hrace =>
    have hres := why.not_opened
    have hv' := hv.trans (beside_racing d script v)
    refine hs.revise hd hv' _ (fun i => ?_) ?_
    · simp [Dial.ending, hno, hres]
    · rw [errands_racing]
      refine (hok.end_attempt hr hl hb hg fun i hi => absurd hi (hres i)).weaken ?_ fun _ _ => rfl
      exact fun h => hq (rings_racing.mp h)
  | opened script hrace =>
    have hsize : v.network.connections.size = s.network.connections.size :=
      congrArg Array.size hv.connections
    let outcome := dial.attempt.outcome
    let w := (v.opening outcome).racing script
    have hdw : w.dial? d = some dial := by simp [w, hv.dial, hd]
    have hw := beside_racing d script (v.opening outcome)
    have hcw : Concerns d s w :=
      hv.toConcerns.trans ((⟨fun _ _ => rfl, fun _ _ => rfl, fun _ _ h => h⟩ :
        Concerns d v (v.opening outcome)).trans hw.toConcerns)
    have hspent : w.spent = s.spent := hw.spent.trans ((spent_opening outcome v).trans hv.spent)
    refine hs.opens hd (hcw.trans (concerns_revise hdw _ dial.attempt.endErrands))
      (by rw [dial?_revise hdw, if_pos rfl]) (hw.link.trans hv.link) ?_ hno ?_ hspent ?_
    · show w.network.connections.size = _
      rw [hw.connections]
      simp [opening, hsize]
    · simp [Dial.ending, hsize]
    · have hew : w.errands d = v.errands d := errands_racing _ script d
      rw [errands_revise, hew]
      refine (hok.end_attempt hr hl hb hg fun i hi => ?_).weaken ?_ fun i _ => congrFun hspent i
      · cases hi
        exact hs.unspent _ (by omega)
      · exact fun h => hq ((rings_racing (s := v.opening outcome)).mp h)

/-- A running attempt waits for the network, or comes to an end at once. -/
theorem Sound.attempt_awaits (hs : s.Sound link) (hd : s.dial? d = some dial)
    (hr : dial.attempt.stage.isRunning = true) (hv : Beside d s v)
    (hl : ∀ e, e ≠ .beginAttempt → e ≠ .resumeAttempt → v.errands d e = s.errands d e)
    (hb : v.errands d .beginAttempt = 0) (hg : v.errands d .resumeAttempt = 0)
    (hq : ¬ v.Rings d) {outcome : Outcome} (ht : Awaits d dial outcome v t) : Kept link s t := by
  have hno : ∀ i, dial.attempt.stage ≠ .ended (.opened i) := by
    intro i hi
    rw [hi] at hr
    cases hr
  -- the attempt waits, in a session that differs from `v` at most in its timers
  have hwaits : ∀ {w}, Beside d s w → w.errands d = v.errands d →
      Kept link s (w.awaiting d dial outcome) := fun {w} hw he => by
    refine hs.revise hd hw [] (by simp [Dial.attempting, hno]) ?_
    rw [he]
    exact (hs.dials d dial hd).await hr hl hb hg outcome (w.Rings d)
  have hdue : (v.awaiting d dial outcome).errands d = v.errands d := errands_revise _ d _ []
  cases ht with
  | hangs => exact hwaits hv rfl
  | timed x =>
    refine hwaits (hv.trans (beside_armedFor x (fun d' hne => ?_) v)) rfl
    simpa using Ne.symm hne
  | ends hends =>
    have hatt := hwaits hv rfl
    have hdv : v.dial? d = some dial := hv.dial.trans hd
    exact hatt.trans (hatt.sound.attempt_ends (dial?_awaiting hdv outcome) rfl (Beside.refl d _)
      (fun _ _ _ => rfl) (by rw [hdue]; exact hb) (by rw [hdue]; exact hg) hq hends)

/-- What the account says nothing about may change. -/
theorem Sound.congr (hs : s.Sound link) (settings : t.link.settings = s.link.settings)
    (held : t.Held) (dials : ∀ d, t.dial? d = s.dial? d) (errands : ∀ d, t.errands d = s.errands d)
    (rings : ∀ d, t.Rings d → s.Rings d)
    (size : t.network.connections.size = s.network.connections.size)
    (spent : t.spent = s.spent) : Kept link s t where
  opened := by
    rintro d i ⟨dial, hd, ho⟩
    exact ⟨dial, (dials d).trans hd, ho⟩
  sound.settings := settings.trans hs.settings
  sound.held := held
  sound.dials d dial hd := by
    rw [errands, spent]
    exact (hs.dials d dial (dials d ▸ hd)).weaken (rings d) fun _ _ => rfl
  sound.absent d hd := by
    rw [errands]
    obtain ⟨he, hr⟩ := hs.absent d (dials d ▸ hd)
    exact ⟨he, fun h => hr (rings d h)⟩
  sound.owner i hi := by
    obtain ⟨d, dial, hd, ho⟩ := hs.owner i (size ▸ hi)
    exact ⟨d, dial, (dials d).trans hd, ho⟩
  sound.once := by
    rintro d d' i ⟨dial, hd, ho⟩ ⟨dial', hd', ho'⟩
    exact hs.once d d' i ⟨dial, dials d ▸ hd, ho⟩ ⟨dial', dials d' ▸ hd', ho'⟩
  sound.known := by
    rintro d i ⟨dial, hd, ho⟩
    rw [size]
    exact hs.known d i ⟨dial, dials d ▸ hd, ho⟩
  sound.unspent i hi := by
    rw [spent]
    exact hs.unspent i (size ▸ hi)

end Session
end DiagnosticWatch
