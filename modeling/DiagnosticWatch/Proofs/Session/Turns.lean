/-
# Turns of the loop

What a turn of the loop does. The jobs of a dial keep away from the link
(`Tidy`), but for the one in which the dial goes on: `Resumes` lists what
happens then. All else that gets ready is a script or the ticker, and is work.

Key definitions: `Session.Tidy`, `Session.GoesOff`, `Session.Resumes`, `Session.popped`.
Key theorems: `Session.resumes_of_resumeDial`, `Session.turns_of_turn`.
-/
import DiagnosticWatch.Proofs.Session.ApartFromPacer

namespace DiagnosticWatch
namespace Session

open Act

variable {A B : Request → Prop} {s t u : Session} {d : Nat} {dial : Dial}

/-! ### What keeps away from the link -/

/-- From `s` to `t` the link and the pacer stay as they are, nothing is told but that
connections are closed, and no script comes in that is not within `A`. -/
structure Tidy (A : Request → Prop) (s t : Session) : Prop extends Apart s t where
  link : t.link = s.link
  opened : s.network.connections.size ≤ t.network.connections.size
  dials : t.network.dials.size = s.network.dials.size
  told : ∃ closed : List Nat, t.told = closed.map Event.close ++ s.told
  scripted : s.Scripted A → t.Scripted A

/-- From `s` to `t` nothing is told that is not plain. -/
theorem Tidy.of_quiet (apart : Apart s t) (link : t.link = s.link)
    (opened : s.network.connections.size ≤ t.network.connections.size)
    (dials : t.network.dials.size = s.network.dials.size) (told : t.told = s.told)
    (scripted : s.Scripted A → t.Scripted A) : Tidy A s t :=
  ⟨apart, link, opened, dials, ⟨[], told⟩, scripted⟩

theorem Tidy.refl (s : Session) : Tidy A s s :=
  .of_quiet (refl_of Apart s) rfl (Nat.le_refl _) rfl rfl fun h => h

theorem Tidy.trans (h : Tidy A s t) (h' : Tidy A t u) : Tidy A s u where
  toApart := trans_of Apart h.toApart h'.toApart
  link := h'.link.trans h.link
  opened := Nat.le_trans h.opened h'.opened
  dials := h'.dials.trans h.dials
  told := by
    obtain ⟨closed, h⟩ := h.told
    obtain ⟨closed', h'⟩ := h'.told
    exact ⟨closed' ++ closed, by rw [h', h, List.map_append, List.append_assoc]⟩
  scripted hs := h'.scripted (h.scripted hs)

theorem Tidy.lastSignal (h : Tidy A s t) : t.lastSignal = s.lastSignal := by
  obtain ⟨closed, h⟩ := h.told
  have hnone : (closed.map Event.close).findSome? Event.signal? = none := by
    simp [List.findSome?_eq_none_iff, Event.signal?]
  rw [lastSignal_eq_told, lastSignal_eq_told, h, List.findSome?_append, hnone, Option.none_or]

theorem Tidy.moves (h : Tidy A s t) : t.moves = s.moves := by
  obtain ⟨closed, h⟩ := h.told
  have hnone : (closed.map Event.close).filterMap Event.move? = [] := by
    simp [List.filterMap_eq_nil_iff, Event.move?]
  rw [moves_eq_told, moves_eq_told, h, List.filterMap_append, hnone, List.nil_append]

theorem Tidy.fit (h : Tidy A s t) (hs : s.Fit A) : t.Fit A :=
  hs.congr_link h.link (h.scripted hs.scripted)

theorem tidy_revise (h : s.dial? d = some dial) {new : Dial} {jobs : List Job}
    (hn : Script.Within A new.attempt.outcome.race) (hj : ∀ script, .race script ∉ jobs) :
    Tidy A s (s.revise d new jobs) :=
  .of_quiet (.of_still rfl rfl rfl rfl rfl) rfl (Nat.le_refl _) (size_revise ..) rfl
    fun hs => hs.revise h new jobs hn hj

theorem tidy_disarmed (alarm : Alarm) (s : Session) : Tidy A s (s.disarmed alarm) :=
  .of_quiet (.of_still rfl rfl rfl rfl rfl) rfl (Nat.le_refl _) rfl rfl fun hs => { hs with }

theorem tidy_armedFor (seconds : Float) (alarm : Alarm) (s : Session) :
    Tidy A s (s.armedFor seconds alarm) :=
  .of_quiet (.of_still rfl rfl rfl rfl rfl) rfl (Nat.le_refl _) rfl rfl fun hs => { hs with }

theorem tidy_tellingOff (d : Nat) (s : Session) : Tidy A s (s.tellingOff d) :=
  .of_quiet (.of_still rfl rfl rfl rfl rfl) rfl (Nat.le_refl _) rfl rfl fun hs => { hs with }

theorem tidy_closed (i : Nat) (s : Session) : Tidy A s (s.closed i) :=
  ⟨apart_closed i s, rfl, by simp [closed], rfl, ⟨[i], rfl⟩, fun hs => { hs with }⟩

theorem apart_opening (outcome : Outcome) (s : Session) : Apart s (s.opening outcome) where
  pacer := rfl
  inTime := by
    unfold opening
    cases outcome.socket with
    | none => exact .of_idle [_] rfl rfl rfl (by simp [Event.isPulse])
    | willing | unwilling => exact .of_idle [_, _] rfl rfl rfl (by simp [Event.isPulse])
  tells := by
    unfold opening
    cases outcome.socket with
    | none => exact ⟨[_], rfl, by simp [Event.isApart, Event.isPaced]⟩
    | willing | unwilling => exact ⟨[_, _], rfl, by simp [Event.isApart, Event.isPaced]⟩
  reads i c hc := by
    refine ⟨c, ?_, .refl c.receiver⟩
    obtain ⟨hlt, -⟩ := Array.getElem?_eq_some_iff.mp hc
    unfold opening
    rw [Array.getElem?_push_lt hlt]
    exact hc ▸ (Array.getElem?_eq_getElem hlt).symm

theorem tidy_opening (outcome : Outcome) (s : Session) : Tidy A s (s.opening outcome) := by
  refine .of_quiet (apart_opening outcome s) rfl (by simp [opening]) rfl ?_ fun hs => { hs with }
  unfold told opening
  cases outcome.socket <;> rfl

theorem tidy_racing {script : List (Reaction Request)} (h : Script.Within A script) (s : Session) :
    Tidy A s (s.racing script) := by
  unfold racing
  split
  · exact Tidy.refl s
  · refine .of_quiet (.of_still rfl rfl rfl rfl rfl) rfl (Nat.le_refl _) rfl rfl
      fun hs => { hs with ready := ?_ }
    intro script' hr
    rcases List.mem_append.mp hr with hr | hr
    · exact hs.ready script' hr
    · cases List.mem_singleton.mp hr
      exact h

theorem tidy_asking (dial : Dial) (s : Session) : Tidy A s (s.asking dial) :=
  .of_quiet (.of_event (e := .attempt dial.host dial.port s.loop.now) rfl rfl rfl rfl rfl rfl) rfl
    (Nat.le_refl _) rfl rfl fun hs =>
      { hs with outcomes := fun o ho => hs.outcomes o (List.mem_of_mem_tail ho) }

theorem Scripted.nextOutcome (hs : s.Scripted A) : Script.Within A s.nextOutcome.race := by
  unfold Session.nextOutcome
  cases h : s.network.outcomes with
  | nil => exact Script.within_nil A
  | cons o os => exact hs.outcomes o (by simp [h])

theorem not_race_mem_errands (d : Nat) (es : List Errand) (script : List (Reaction Request)) :
    .race script ∉ es.map (Errand.job d) := by
  intro h
  obtain ⟨e, -, he⟩ := List.mem_map.mp h
  cases e <;> cases he

theorem tidy_of_attemptEnds (h : s.dial? d = some dial)
    (hd : Script.Within A dial.attempt.outcome.race) (ht : AttemptEnds d dial s t) : Tidy A s t := by
  have hscript : ∀ {script}, script = dial.attempt.outcome.race ∨ script = [] →
      Script.Within A script := by
    rintro script (rfl | rfl)
    · exact hd
    · exact Script.within_nil A
  cases ht with
  | opened script hrace =>
    have h' : ((s.opening dial.attempt.outcome).racing script).dial? d = some dial := by
      simpa using h
    exact ((tidy_opening _ s).trans (tidy_racing (hscript hrace) _)).trans
      (tidy_revise h' hd (not_race_mem_errands d _))
  | closed result why script hrace =>
    have h' : (s.racing script).dial? d = some dial := by simpa using h
    exact (tidy_racing (hscript hrace) s).trans (tidy_revise h' hd (not_race_mem_errands d _))

theorem tidy_of_awaits {outcome : Outcome} (h : s.dial? d = some dial)
    (ho : Script.Within A outcome.race) (ht : Awaits d dial outcome s t) : Tidy A s t := by
  have hwaits : Tidy A s (s.awaiting d dial outcome) := tidy_revise h ho nofun
  cases ht with
  | ends hends => exact hwaits.trans (tidy_of_attemptEnds (dial?_awaiting h outcome) ho hends)
  | hangs => exact hwaits
  | timed x => exact hwaits.trans (tidy_armedFor x _ _)

/-! ### Errands -/

theorem tidy_of_ends {act : Act Session Unit} (h : act.Ends s t) (hu : act s = .ok () u)
    (hsu : Tidy A s u) : Tidy A s t := by
  rwa [(ends_ok_iff hu).mp h]

variable {ask : Request → Act Session Answer}

/-- An errand for a dial that there is not does nothing. -/
theorem runJob_of_absent (errand : Errand) (h : s.dial? d = none) :
    runJob ask (errand.job d) s = .ok () s := by
  cases errand <;>
    simp only [Errand.job, runJob, beginDial, resumeDial, beginAttempt, resumeAttempt, attemptEnded,
      shieldDone, releaseDial, settleDial, closeOpened, get_bind_apply, h, pure_apply]

/-- Every errand but the going on of a dial keeps away from the link. -/
theorem tidy_errand (hs : s.Scripted A) (hd : s.dial? d = some dial) {errand : Errand}
    (he : errand ≠ .resumeDial) (h : (runJob ask (errand.job d)).Ends s t) : Tidy A s t := by
  have hw := hs.dials d dial hd
  cases errand with
  | resumeDial => exact absurd rfl he
  | beginDial =>
    rcases beginDial_cases hd with ⟨-, e⟩ | ⟨x, -, -, e⟩ | ⟨-, -, e⟩
    · exact tidy_of_ends h e (tidy_revise hd hw nofun)
    · have hd' : (s.armedFor x (.dialTimeout d)).dial? d = some dial := hd
      exact tidy_of_ends h e ((tidy_armedFor x _ s).trans (tidy_revise hd' hw (by simp)))
    · exact tidy_of_ends h e (tidy_revise hd hw (by simp))
  | beginAttempt =>
    have hd' : (s.asking dial).dial? d = some dial := hd
    rcases beginAttempt_cases hd with ⟨u, hu, e⟩ | ⟨u, hu, e⟩
    · exact tidy_of_ends h e (tidy_of_attemptEnds hd hw hu)
    · exact tidy_of_ends h e ((tidy_asking dial s).trans (tidy_of_awaits hd' hs.nextOutcome hu))
  | resumeAttempt =>
    have hd' : (s.tellingOff d).dial? d = some dial := hd
    rcases resumeAttempt_cases hd with ⟨-, ⟨u, hu, e⟩ | ⟨ending, delay, u, hu, e⟩⟩ |
      ⟨-, ⟨u, hu, e⟩ | e⟩
    · exact tidy_of_ends h e ((tidy_tellingOff d s).trans (tidy_of_attemptEnds hd' hw hu))
    · exact tidy_of_ends h e
        ((tidy_tellingOff d s).trans (tidy_of_awaits hd' (Script.within_nil A) hu))
    · exact tidy_of_ends h e (tidy_of_attemptEnds hd hw hu)
    · exact tidy_of_ends h e (Tidy.refl s)
  | attemptEnded =>
    rcases attemptEnded_cases hd with ⟨result, -, -, e⟩ | ⟨-, e⟩
    · exact tidy_of_ends h e (tidy_revise hd hw (by simp))
    · exact tidy_of_ends h e (Tidy.refl s)
  | shieldDone =>
    rcases shieldDone_cases hd with ⟨-, e⟩ | ⟨-, e⟩
    · exact tidy_of_ends h e (Tidy.refl s)
    · exact tidy_of_ends h e (tidy_revise hd hw nofun)
  | releaseDial =>
    rcases releaseDial_cases hd with ⟨-, -, e⟩ | ⟨-, e⟩
    · exact tidy_of_ends h e (tidy_revise hd hw (by simp))
    · exact tidy_of_ends h e (Tidy.refl s)
  | settleDial =>
    rcases settleDial_cases hd with ⟨-, -, e⟩ | ⟨-, e⟩
    · exact tidy_of_ends h e (tidy_revise hd hw (by simp))
    · exact tidy_of_ends h e (Tidy.refl s)
  | closeOpened =>
    rcases closeOpened_cases hd with ⟨i, -, e⟩ | ⟨-, e⟩
    · exact tidy_of_ends h e (tidy_closed i s)
    · exact tidy_of_ends h e (Tidy.refl s)

/-! ### What a timer does -/

/-- What a timer does that goes off: it wakes the dial or the attempt that it is for, if
that waits, and gets the ticker ready. -/
inductive GoesOff (s : Session) : Alarm → Session → Prop
  | unwaited {d : Nat} (busy : ∀ dial, s.dial? d = some dial →
      ¬ (dial.stage = .waiting ∧ dial.wake = .waiting)) : GoesOff s (.dialTimeout d) s
  | wakesDial {d : Nat} {dial : Dial} (present : s.dial? d = some dial)
      (stage : dial.stage = .waiting) (wake : dial.wake = .waiting) :
      GoesOff s (.dialTimeout d) (s.revise d { dial with wake := .released } [.resumeDial d])
  | unheard {d : Nat} : GoesOff s (.attempt d) s
  | wakesAttempt {d : Nat} {dial : Dial} (present : s.dial? d = some dial)
      (wake : dial.attempt.wake = .waiting) :
      GoesOff s (.attempt d) (s.revise d
        { dial with attempt := { dial.attempt with wake := .released } } [.resumeAttempt d])
  | ticker :
      GoesOff s .ticker { s with loop := { s.loop with ready := s.loop.ready ++ [.ticker] } }

theorem goesOff_of_ends {alarm : Alarm} (h : (goOff alarm).Ends s t) : GoesOff s alarm t := by
  cases alarm with
  | dialTimeout d =>
    cases hd : s.dial? d with
    | none =>
      rw [(ends_ok_iff (releaseDial_of_absent hd)).mp h]
      exact .unwaited fun dial hd' => by rw [hd] at hd'; cases hd'
    | some dial =>
      rcases releaseDial_cases hd with ⟨stage, wake, e⟩ | ⟨busy, e⟩ <;>
        rw [(ends_ok_iff e).mp h]
      · exact .wakesDial hd stage wake
      · exact .unwaited fun dial' hd' => by cases hd.symm.trans hd'; exact busy
  | attempt d =>
    cases hd : s.dial? d with
    | none =>
      have hnone : wakeAttempt d s = .ok () s := by
        simp only [wakeAttempt, get_bind_apply, hd, pure_apply]
      rw [(ends_ok_iff hnone).mp h]
      exact .unheard
    | some dial =>
      rcases wakeAttempt_cases hd with ⟨wake, e⟩ | ⟨-, e⟩ <;> rw [(ends_ok_iff e).mp h]
      · exact .wakesAttempt hd wake
      · exact .unheard
  | ticker =>
    rw [(ends_ok_iff (enqueue_apply .ticker s)).mp h]
    exact .ticker

/-- A timer that goes off keeps away from the link. -/
theorem tidy_goOff (hs : s.Scripted A) (alarm : Alarm) (h : (goOff alarm).Ends s t) :
    Tidy A s t := by
  cases goesOff_of_ends h with
  | unwaited | unheard => exact .refl s
  | wakesDial hd | wakesAttempt hd =>
    have hrace := hs.dials _ _ hd
    exact tidy_revise hd hrace (by simp)
  | ticker =>
    refine .of_quiet (.of_still rfl rfl rfl rfl rfl) rfl (Nat.le_refl _) rfl rfl fun hs => ?_
    refine { hs with ready := fun script hr => hs.ready script ?_ }
    simpa using hr

/-! ### What a dial does when it goes on -/

/-- The dial waits for the shield it has cancelled. -/
def settling (d : Nat) (dial : Dial) (s : Session) : Session :=
  s.revise d
    { dial with
      stage := .settling (!dial.isCancelled)
      wake := .waiting
      cancelAsked := false
      shield := .cancelled } [.shieldDone d, .settleDial d]

/-- The dial has failed, and the link knows. -/
def failing (d : Nat) (dial : Dial) (text : String) (s : Session) : Session :=
  { (s.dialGivenUp d dial).dialless with trace := s.trace.record (.log .debug text) }

/-- What a dial does when it goes on. It says its word to the link, which heeds it only
while it is connecting, or it has nothing to say. -/
inductive Resumes (A : Request → Prop) (d : Nat) (dial : Dial) (s : Session) : Session → Prop
  /-- It is over, or has not begun. -/
  | late (h : dial.stage = .fresh ∨ dial.stage = .ended) : Resumes A d dial s s
  | settles (stage : dial.stage = .waiting) (shield : dial.shield = .waiting) :
      Resumes A d dial s (s.settling d dial)
  /-- It ends without a word after an unexpected failure. -/
  | dies (stage : dial.stage = .waiting) (shield : dial.shield = .resolved (.failed true)) :
      Resumes A d dial s (s.dialEnded d dial)
  | givesUp (h : (dial.stage = .waiting ∧
        (dial.shield = .cancelled ∨ dial.shield = .resolved .cancelled)) ∨
      ∃ b, dial.stage = .settling b) (word : dial.word = none) :
      Resumes A d dial s (s.dialGivenUp d dial)
  | refused {i : Nat} (stage : dial.stage = .waiting) (shield : dial.shield = .resolved (.opened i))
      (phase : s.phase ≠ .connecting) : Resumes A d dial s ((s.dialEnded d dial).dialless.closed i)
  | connects {i : Nat} {t : Session} (stage : dial.stage = .waiting)
      (shield : dial.shield = .resolved (.opened i)) (phase : s.phase = .connecting)
      (listeners : Work A (((s.dialEnded d dial).dialless.holding i).movedTo .connected) t) :
      Resumes A d dial s t
  | ignored (word : dial.word = some (.failed false)) (text : String)
      (phase : s.phase ≠ .connecting) : Resumes A d dial s (s.failing d dial text)
  | disconnects {t : Session} (word : dial.word = some (.failed false)) (text : String)
      (phase : s.phase = .connecting)
      (listeners : Work A ((s.failing d dial text).movedTo .disconnected) t) : Resumes A d dial s t

theorem forsaken_outcome (attempt : Attempt) : attempt.forsaken.outcome = attempt.outcome := by
  unfold Attempt.forsaken
  split <;> rfl

theorem tidy_dialEnded (hs : s.Scripted A) (h : s.dial? d = some dial) :
    Tidy A s (s.dialEnded d dial) := by
  have h' : (s.disarmed (.dialTimeout d)).dial? d = some dial := h
  exact (tidy_disarmed _ s).trans (tidy_revise h' (hs.dials d dial h) nofun)

theorem tidy_dialGivenUp (hs : s.Scripted A) (h : s.dial? d = some dial) :
    Tidy A s (s.dialGivenUp d dial) := by
  have h' : (s.disarmed (.dialTimeout d)).dial? d = some dial := h
  refine (tidy_disarmed _ s).trans (tidy_revise h' ?_ (not_race_mem_errands d _))
  rw [forsaken_outcome]
  exact hs.dials d dial h

theorem Scripted.failing (hs : s.Scripted A) (h : s.dial? d = some dial) (text : String) :
    (s.failing d dial text).Scripted A := by
  have := (tidy_dialGivenUp hs h).scripted hs
  exact { this with }

theorem Scripted.holding (hs : s.Scripted A) (h : s.dial? d = some dial) (i : Nat) :
    ((s.dialEnded d dial).dialless.holding i).Scripted A := by
  have := (tidy_dialEnded hs h).scripted hs
  exact { this with }

/-- The session is fit when the link has taken the connection of a dial. -/
theorem Fit.connected (hs : s.Fit A) (h : s.dial? d = some dial) (i : Nat) :
    (((s.dialEnded d dial).dialless.holding i).movedTo .connected).Fit A where
  scripted := { hs.scripted.holding h i with }
  held := ⟨fun hp => absurd rfl hp, fun _ => ⟨i, rfl, rfl⟩⟩

/-- The session is fit when the link has learned that a dial has failed. -/
theorem Fit.disconnected (hs : s.Fit A) (h : s.dial? d = some dial) (hp : s.phase = .connecting)
    (text : String) : ((s.failing d dial text).movedTo .disconnected).Fit A where
  scripted := { hs.scripted.failing h text with }
  held := ⟨fun _ => hs.held.1 (by rw [hp]; nofun), nofun⟩

theorem works_sayConnected (d : Nat) : Works A (sayConnected d) := by
  unfold sayConnected
  refine Works.get fun s => ?_
  split
  · exact works_log _ _ s
  · exact Leads.pure () s

/-- A dial that goes on does one of these things. -/
theorem resumes_of_resumeDial (ha : Asks A ask) (hs : s.Fit A) (hd : s.dial? d = some dial)
    (h : (resumeDial ask d).Ends s t) : Resumes A d dial s t := by
  have hends : ∀ {act : Act Session Unit} {u : Session},
      resumeDial ask d s = act u → act.Ends u t := by
    intro act u e
    unfold Ends at h ⊢
    rwa [e] at h
  rcases resumeDial_cases ask hd with ⟨i, -, hw, hr, e⟩ | ⟨reason, hw, -, -, -, e⟩ |
    ⟨hn, ⟨hw, hr, e⟩ | ⟨hw, hr, e⟩ | ⟨hw, e⟩ | ⟨hw, e⟩⟩
  · rw [dialOpened_apply ask hd i] at e
    by_cases hp : s.phase = .connecting
    · rw [if_neg (by simpa using hp)] at e
      let v := (s.dialEnded d dial).dialless.holding i
      have hp' : v.phase = .connecting := hp
      have hc : v.phase.canBecome .connected = true := by rw [hp']; rfl
      have hv : (v.movedTo .connected).Fit A := hs.connected hd i
      have hl : Leads (Yields A) (tellState ask .connecting .connected v.link.life.listeners >>=
          fun _ => sayConnected d) (v.movedTo .connected) :=
        Leads.bind (leads_tellState ha .connecting .connected (v.movedTo .connected))
          fun _ u _ _ => works_sayConnected d u
      refine .connects hw hr hp (hl t (hends ?_) hv)
      rw [e, bind_apply, moveTo_apply hc, hp', ← bind_apply]
    · simp only [ne_eq, hp, not_false_eq_true, ↓reduceIte] at e
      rw [(ends_ok_iff e).mp h]
      exact .refused hw hr hp
  · obtain ⟨text, e'⟩ := dialFailed_apply ask hd reason
    rw [e'] at e
    by_cases hp : s.phase = .connecting
    · rw [if_pos hp] at e
      have hp' : (s.failing d dial text).phase = .connecting := hp
      have hc : (s.failing d dial text).phase.canBecome .disconnected = true := by rw [hp']; rfl
      have hv : ((s.failing d dial text).movedTo .disconnected).Fit A := hs.disconnected hd hp text
      refine .disconnects hw text hp ?_
      exact leads_tellState ha .connecting .disconnected _ t
        (hends (by rw [e]; exact (moveTo_apply hc).trans (by rw [hp']; rfl))) hv
    · rw [if_neg hp] at e
      rw [(ends_ok_iff e).mp h]
      exact .ignored hw text hp
  · rw [settle_apply hd] at e
    rw [(ends_ok_iff e).mp h]
    exact .settles hw hr
  · rw [endDial_apply hd] at e
    rw [(ends_ok_iff e).mp h]
    exact .dies hw hr
  · rw [giveUpDial_apply hd] at e
    rw [(ends_ok_iff e).mp h]
    exact .givesUp hw hn
  · rw [(ends_ok_iff e).mp h]
    exact .late hw

/-! ### Turns -/

/-- The first job has been taken out. -/
def popped (ready : List Job) (s : Session) : Session :=
  { s with loop := { s.loop with ready } }

theorem tidy_popped {job : Job} {ready : List Job} (h : s.loop.ready = job :: ready) :
    Tidy A s (s.popped ready) := by
  refine .of_quiet (.of_still rfl rfl rfl rfl rfl) rfl (Nat.le_refl _) rfl rfl
    fun hs => { hs with ready := ?_ }
  intro script hr
  refine hs.ready script ?_
  rw [h]
  exact List.mem_cons_of_mem _ hr

/-- An errand that is taken out and run keeps away from the link, unless a dial goes on. -/
theorem tidy_of_errand (hs : s.Scripted A) {errand : Errand} {ready : List Job}
    (hr : s.loop.ready = errand.job d :: ready) (hd : s.dial? d = some dial)
    (he : errand ≠ .resumeDial) (h : (runJob ask (errand.job d)).Ends (s.popped ready) t) :
    Tidy A s t := by
  have hp := tidy_popped (A := A) hr
  exact hp.trans (tidy_errand (hp.scripted hs) hd he h)

/-- A timer that is disarmed and goes off keeps away from the link. -/
theorem tidy_of_alarm (hs : s.Scripted A) {alarm : Alarm}
    (h : (goOff alarm).Ends (s.disarmed alarm) t) : Tidy A s t := by
  have hd := tidy_disarmed (A := A) alarm s
  exact hd.trans (tidy_goOff (hd.scripted hs) alarm h)

/-- What a turn of the loop does: nothing if nothing is ready, and otherwise the first
job. -/
inductive Turns (A : Request → Prop) (s : Session) : Session → Prop
  | idle (h : s.loop.ready = []) : Turns A s s
  /-- An errand for a dial that there is not. -/
  | absent {d : Nat} {errand : Errand} {ready : List Job} (h : s.loop.ready = errand.job d :: ready)
      (absent : s.dial? d = none) : Turns A s (s.popped ready)
  | errand {d : Nat} {dial : Dial} {errand : Errand} {ready : List Job} {t : Session}
      {ask : Request → Act Session Answer} (h : s.loop.ready = errand.job d :: ready)
      (present : s.dial? d = some dial) (other : errand ≠ .resumeDial)
      (ends : (runJob ask (errand.job d)).Ends (s.popped ready) t) : Turns A s t
  | resumes {d : Nat} {dial : Dial} {ready : List Job} {t : Session}
      (h : s.loop.ready = .resumeDial d :: ready) (present : s.dial? d = some dial)
      (resumes : Resumes A d dial (s.popped ready) t) : Turns A s t
  /-- A script or the ticker. -/
  | works {job : Job} {ready : List Job} {t : Session} (h : s.loop.ready = job :: ready)
      (other : ∀ d errand, job ≠ Errand.job d errand) (work : Work A (s.popped ready) t) :
      Turns A s t

theorem turn_cases (h : (turn ask).Ends s t) :
    (s.loop.ready = [] ∧ t = s) ∨
    ∃ job ready, s.loop.ready = job :: ready ∧ (runJob ask job).Ends (s.popped ready) t := by
  unfold turn Ends at h
  rw [get_bind_apply] at h
  cases hr : s.loop.ready with
  | nil =>
    simp only [hr, pure_apply] at h
    rcases h with ⟨a, h⟩ | ⟨e, -, h⟩ <;> cases h
    exact .inl ⟨rfl, rfl⟩
  | cons job ready =>
    simp only [hr] at h
    exact .inr ⟨job, ready, rfl, ends_of_bind_pure h⟩

/-- A turn of the loop does one of these things. -/
theorem turns_of_turn (ha : Asks A ask) (hs : s.Fit A) (h : (turn ask).Ends s t) :
    Turns A s t := by
  rcases turn_cases h with ⟨hr, rfl⟩ | ⟨job, ready, hr, h'⟩
  · exact .idle hr
  · have hp : (s.popped ready).Fit A := (tidy_popped hr).fit hs
    rcases job.cases_errand with ⟨d, errand, rfl⟩ | ⟨script, rfl⟩ | rfl
    · cases hd : s.dial? d with
      | none =>
        rw [(ends_ok_iff (runJob_of_absent (s := s.popped ready) errand hd)).mp h']
        exact .absent hr hd
      | some dial =>
        by_cases he : errand = .resumeDial
        · subst he
          exact .resumes hr hd (resumes_of_resumeDial ha hp hd h')
        · exact .errand hr hd he h'
    · refine .works hr (fun d errand => by cases errand <;> nofun) ?_
      have hw : Script.Within A script := hs.scripted.ready script (by simp [hr])
      exact Leads.rescue (fun _ he => he) (works_script ha hw _) (fun _ v _ _ _ => Leads.pure () v)
        t h' hp
    · exact .works hr (fun d errand => by cases errand <;> nofun) (works_runTicker ha _ t h' hp)

/-! ### What turns keep -/

theorem Fit.resumes (hs : s.Fit A) (hd : s.dial? d = some dial) (h : Resumes A d dial s t) :
    t.Fit A := by
  have hend := (tidy_dialEnded hs.scripted hd).fit hs
  cases h with
  | late => exact hs
  | settles =>
    exact ⟨hs.scripted.revise hd _ _ (hs.scripted.dials d dial hd) (by simp), hs.held⟩
  | dies => exact hend
  | givesUp => exact (tidy_dialGivenUp hs.scripted hd).fit hs
  | refused => exact ⟨{ hend.scripted with }, hend.held⟩
  | connects _ _ _ listeners => exact (hs.connected hd _).work listeners
  | ignored _ text => exact ⟨hs.scripted.failing hd text, hs.held⟩
  | disconnects _ text phase listeners => exact (hs.disconnected hd phase text).work listeners

theorem Fit.turns (hs : s.Fit A) (h : Turns A s t) : t.Fit A := by
  cases h with
  | idle => exact hs
  | absent h => exact (tidy_popped h).fit hs
  | errand h present other ends => exact (tidy_of_errand hs.scripted h present other ends).fit hs
  | resumes h present resumes => exact ((tidy_popped h).fit hs).resumes present resumes
  | works h _ work => exact ((tidy_popped h).fit hs).work work

/-! ### What holds aside from the pacer in a turn -/

section Apart

variable {R : Session → Session → Prop} [IsPreorder Session R]

theorem apart_dialless (s : Session) : Apart s s.dialless :=
  .of_still rfl rfl rfl rfl rfl

/-- The link takes a connection, and connects with that. -/
theorem apart_connected (i : Nat) (s : Session) : Apart s ((s.holding i).movedTo .connected) :=
  ⟨rfl, inTime_connected i s, ⟨[.moved s.phase .connected], rfl,
    by simp [Event.isApart, Event.isPaced]⟩, onlyReads_of_eq rfl⟩

/-- A relation that holds where nothing happens but apart from the pacer holds when a dial
goes on, if it holds through the requests of listeners. -/
theorem leads_resumeDial (hR : ∀ {s t}, Apart s t → R s t)
    (ha : ∀ q, Request.Within A q → Keeps A R (ask q)) (hs : s.Fit B) (hd : s.dial? d = some dial) :
    Leads (Under A R) (resumeDial ask d) s := by
  have ho : Overlooks A R := overlooks_of_apart hR
  have hunder {u v : Session} (h : Apart u v)
      (life : v.link.life.listeners = u.link.life.listeners)
      (signal : v.link.signal.listeners = u.link.signal.listeners) : Under A R u v := fun hu =>
    ⟨hu.congr life signal, hR h⟩
  have hended : Apart s (s.dialEnded d dial) := (tidy_dialEnded hs.scripted hd).toApart
  have hgiven : Tidy B s (s.dialGivenUp d dial) := tidy_dialGivenUp hs.scripted hd
  rcases resumeDial_cases ask hd with ⟨i, -, -, -, e⟩ | ⟨reason, -, -, -, -, e⟩ |
    ⟨-, ⟨-, -, e⟩ | ⟨-, -, e⟩ | ⟨-, e⟩ | ⟨-, e⟩⟩
  · rw [dialOpened_apply ask hd i] at e
    by_cases hp : s.phase = .connecting
    · rw [if_neg (by simpa using hp)] at e
      let v := (s.dialEnded d dial).dialless.holding i
      have hp' : v.phase = .connecting := hp
      have hv : Apart s (v.movedTo .connected) :=
        trans_of Apart hended (trans_of Apart (apart_dialless _) (apart_connected i _))
      have hl : Leads (Under A R) (tellState ask v.phase .connected v.link.life.listeners >>=
          fun _ => sayConnected d) (v.movedTo .connected) := by
        refine Leads.bind (leads_tellState_aside ho ha v.phase .connected (v.movedTo .connected))
          fun _ u _ _ => ?_
        unfold sayConnected
        rw [leads_get_bind]
        split
        · exact keeps_log ho _ _ u
        · exact Leads.pure () u
      refine Leads.after (hunder hv rfl rfl) hl ?_
      rw [e, bind_apply, moveTo_apply (by rw [hp']; rfl), ← bind_apply]
    · rw [if_pos hp] at e
      exact leads_of_ok e
        (hunder (trans_of Apart hended (trans_of Apart (apart_dialless _) (apart_closed i _))) rfl rfl)
  · obtain ⟨text, e'⟩ := dialFailed_apply ask hd reason
    rw [e'] at e
    let v := s.failing d dial text
    have hlog : Apart (s.dialGivenUp d dial) v :=
      .of_event (e := .log .debug text) rfl rfl rfl rfl rfl rfl
    have hv : Under A R s v := hunder (trans_of Apart hgiven.toApart hlog)
      (by rw [← hgiven.link]; rfl) (by rw [← hgiven.link]; rfl)
    refine Leads.after hv ?_ e
    split
    · have hp : v.phase = .connecting := ‹_›
      have hl := leads_tellState_aside ho ha v.phase .disconnected (v.movedTo .disconnected)
      exact Leads.after (hunder (apart_movedTo .disconnected nofun v) rfl rfl) hl
        (moveTo_apply (by rw [hp]; rfl))
    · exact Leads.pure () v
  · rw [settle_apply hd] at e
    exact leads_of_ok e (hunder (.of_still rfl rfl rfl rfl rfl) rfl rfl)
  · rw [endDial_apply hd] at e
    exact leads_of_ok e (hunder hended rfl rfl)
  · rw [giveUpDial_apply hd] at e
    exact leads_of_ok e
      (hunder hgiven.toApart (by rw [hgiven.link]) (by rw [hgiven.link]))
  · exact leads_of_ok e (refl_of (Under A R) s)

/-- So it holds through a turn of the loop, if it does through the requests of the scripts that
wait in it, and where the ticker runs. -/
theorem leads_turn_apart (hR : ∀ {s t}, Apart s t → R s t)
    (ha : ∀ q, Request.Within A q → Keeps A R (ask q))
    (hb : ∀ q, Request.Within B q → Keeps A R (ask q))
    (ht : ∀ ready, s.loop.ready = .ticker :: ready →
      Leads (Under A R) (runTicker ask) (s.popped ready))
    (hs : s.Fit B) : Leads (Under A R) (turn ask) s := by
  have hunder {u v : Session} (h : Tidy B u v) : Under A R u v := fun hu =>
    ⟨hu.congr_link h.link, hR h.toApart⟩
  intro t h
  rcases turn_cases h with ⟨-, rfl⟩ | ⟨job, ready, hr, hj⟩
  · exact refl_of (Under A R) t
  have hpop : Tidy B s (s.popped ready) := tidy_popped hr
  have hp := hpop.fit hs
  refine trans_of (Under A R) (hunder hpop) ?_
  rcases job.cases_errand with ⟨d, errand, rfl⟩ | ⟨script, rfl⟩ | rfl
  · cases hd : s.dial? d with
    | none =>
      rw [(ends_ok_iff (runJob_of_absent (s := s.popped ready) errand hd)).mp hj]
      exact refl_of (Under A R) _
    | some dial =>
      by_cases he : errand = .resumeDial
      · subst he
        exact leads_resumeDial hR ha hp hd t hj
      · exact hunder (tidy_errand hp.scripted hd he hj)
  · have hw : Script.Within B script := hs.scripted.ready script (by simp [hr])
    have hscript : Keeps A R ((Script.run Request.name ask script).rescue Fault.isOrdinary
        fun _ => pure ()) :=
      Keeps.rescue (fun _ h => h) (keeps_script (overlooks_of_apart hR) ha hb hw)
        fun _ => Keeps.pure ()
    exact hscript _ t hj
  · exact ht ready hr t hj

end Apart

end Session
end DiagnosticWatch
