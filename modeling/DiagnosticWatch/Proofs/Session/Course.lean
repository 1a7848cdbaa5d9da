/-
# The course of a dial

What becomes of a dial, one thing at a time. As long as nobody cancels it and
it has nothing to say, a dial goes its way (`Dial.Proceeds`): it begins, its
attempt gets on, it is woken and cancels its shield. Besides, it may be over
or be cancelled (`Dial.Step`). Each errand, each timer and all work take every
dial along such steps, and new dials begin fresh (`Session.Courses`).

The steps are about a dial and whether its timer is armed.

Key definitions: `Outcome.Tame`, `Dial.Proceeds`, `Dial.Step`, `Session.ticks`,
`Session.Courses`.
Key theorems: `Session.courses_of_errand`, `Session.courses_of_alarm`,
`Session.courses_of_work`, `Session.courses_of_resumes`.
-/
import DiagnosticWatch.Proofs.Session.ClosedOnce

namespace DiagnosticWatch

/-- The network fails the attempt with nothing but an error of the network, and its delay
can be timed. -/
structure Outcome.Tame (o : Outcome) : Prop where
  expected : o.ending ≠ .fails true
  timed : o.ending ≠ .hangs → o.delay.exceeds 0 = true → o.delay.toFloat? ≠ none

theorem Outcome.tame_refusal : Outcome.refusal.Tame :=
  ⟨nofun, fun _ _ => nofun⟩

/-- An attempt that the network treats so fails with an error of the network, if it does. -/
theorem Outcome.Tame.not_unexpected {attempt : Attempt} (h : attempt.outcome.Tame)
    {result : Result} (why : attempt.Fails result) : result ≠ .failed true := by
  rintro rfl
  cases why with
  | failed he => exact h.expected he
  | untimed he hl hx => exact h.timed he hl hx

/-- What becomes of an attempt. The network is tame, but for those that go on although they have
been cancelled. -/
inductive Attempt.Proceeds (attempt : Attempt) : Attempt → Prop
  | waits {outcome : Outcome}
      (tame : outcome.Tame ∨ attempt.wake = .cancelled ∨ attempt.cancelAsked = true) :
      Proceeds attempt { attempt with
        stage := .waiting, wake := .waiting, cancelAsked := false, outcome }
  | opens (i : Nat) : Proceeds attempt { attempt with stage := .ended (.opened i) }
  | fails {result : Result} (why : attempt.Fails result) :
      Proceeds attempt { attempt with stage := .ended result }
  | freed : Proceeds attempt { attempt with shielded := false }
  | woken : Proceeds attempt { attempt with wake := .released }

/-- What becomes of a dial that nobody cancels, as long as it has nothing to say. The flag
says whether its timer is armed. -/
inductive Dial.Proceeds (link : Settings) : Dial × Bool → Dial × Bool → Prop
  | stillborn {dial : Dial} {ticks : Bool} (fresh : dial.stage = .fresh)
      (asked : dial.cancelAsked = true) :
      Proceeds link (dial, ticks) ({ dial with stage := .ended }, ticks)
  | begins {dial : Dial} {ticks : Bool} (fresh : dial.stage = .fresh)
      (time : link.connectTimeout.toFloat?.isSome = true) :
      Proceeds link (dial, ticks) ({ dial with
        stage := .waiting
        attempt := { dial.attempt with stage := .fresh, shielded := true } }, true)
  | dies {dial : Dial} {ticks : Bool} (fresh : dial.stage = .fresh)
      (time : link.connectTimeout.toFloat? = none) :
      Proceeds link (dial, ticks) ({ dial with
        stage := .ended
        attempt := { dial.attempt with stage := .fresh, shielded := true } }, ticks)
  | attempt {dial : Dial} {ticks : Bool} {attempt : Attempt} (h : dial.attempt.Proceeds attempt) :
      Proceeds link (dial, ticks) ({ dial with attempt }, ticks)
  | learns {dial : Dial} {ticks : Bool} {result : Result}
      (h : dial.attempt.stage = .ended result) :
      Proceeds link (dial, ticks)
        ({ dial with shield := if result = .cancelled then .cancelled else .resolved result }, ticks)
  | woken {dial : Dial} {ticks : Bool} (h : dial.stage ≠ .fresh) :
      Proceeds link (dial, ticks) ({ dial with wake := .released }, ticks)
  /-- Its timer goes off, or would find it woken. -/
  | rings {dial : Dial} {ticks : Bool} (h : dial.stage = .waiting → dial.wake ≠ .waiting) :
      Proceeds link (dial, ticks) (dial, false)
  | settles {dial : Dial} {ticks : Bool} (stage : dial.stage = .waiting) :
      Proceeds link (dial, ticks) ({ dial with
        stage := .settling (!dial.isCancelled)
        wake := .waiting
        cancelAsked := false
        shield := .cancelled }, ticks)

/-- What becomes of a dial. -/
inductive Dial.Step (link : Settings) : Dial × Bool → Dial × Bool → Prop
  | proceeds {a b : Dial × Bool} (h : Proceeds link a b) : Step link a b
  | ends {dial : Dial} {ticks : Bool} {attempt : Attempt}
      (h : attempt = dial.attempt ∨ attempt = dial.attempt.forsaken) :
      Step link (dial, ticks) ({ dial with stage := .ended, attempt }, false)
  | cancelled {dial : Dial} {ticks : Bool} :
      Step link (dial, ticks) ({ dial with wake := .cancelled }, ticks)
  | asked {dial : Dial} {ticks : Bool} :
      Step link (dial, ticks) ({ dial with cancelAsked := true }, ticks)

namespace Session

open Act

variable {A : Request → Prop} {s t u : Session} {d : Nat} {dial new : Dial} {link : Settings}
  {R : Dial × Bool → Dial × Bool → Prop}

/-! ### Timers -/

/-- Whether the timer of the dial is armed. -/
def ticks (s : Session) (d : Nat) : Bool :=
  s.loop.timers.any fun timer => timer.alarm = .dialTimeout d

theorem ticks_eq_alarms (s : Session) (d : Nat) :
    s.ticks d = s.alarms.any fun timer => timer.alarm = .dialTimeout d := by
  unfold ticks alarms
  rw [List.any_filter]
  congr 1
  funext timer
  cases timer.alarm <;> simp

theorem ticks_disarmed (alarm : Alarm) (s : Session) (d : Nat) :
    (s.disarmed alarm).ticks d = (s.ticks d && alarm ≠ .dialTimeout d) := by
  unfold ticks disarmed
  rw [List.any_filter]
  by_cases h : alarm = .dialTimeout d
  · subst h
    simp
  · simp only [ne_eq, h, not_false_eq_true, decide_true, Bool.and_true]
    congr 1
    funext timer
    by_cases ht : timer.alarm = .dialTimeout d
    · simp [ht, Ne.symm h]
    · simp [ht]

theorem ticks_armedFor (x : Float) (alarm : Alarm) (s : Session) (d : Nat) :
    (s.armedFor x alarm).ticks d = (s.ticks d || alarm = .dialTimeout d) := by
  simp [ticks, armedFor]

/-! ### Courses -/

/-- From `s` to `t` every dial takes some of the steps, as does a fresh one for every dial
that was made, and the network is asked for some of its outcomes in turn. -/
structure Courses (R : Dial × Bool → Dial × Bool → Prop) (s t : Session) : Prop where
  dials : ∀ d dial, s.dial? d = some dial →
    ∃ dial', t.dial? d = some dial' ∧ Relation.ReflTransGen R (dial, s.ticks d) (dial', t.ticks d)
  made : ∀ d dial, t.dial? d = some dial → s.dial? d = none →
    ∃ host port ticks, Relation.ReflTransGen R (.fresh host port, ticks) (dial, t.ticks d)
  outcomes : t.network.outcomes <:+ s.network.outcomes

theorem Courses.trans (h : Courses R s t) (h' : Courses R t u) : Courses R s u where
  dials d dial hd := by
    obtain ⟨dial', hd', hpath⟩ := h.dials d dial hd
    obtain ⟨dial'', hd'', hpath'⟩ := h'.dials d dial' hd'
    exact ⟨dial'', hd'', hpath.trans hpath'⟩
  made d dial hd hnone := by
    cases ht : t.dial? d with
    | none => exact h'.made d dial hd ht
    | some dial' =>
      obtain ⟨host, port, ticks, hpath⟩ := h.made d dial' ht hnone
      obtain ⟨dial'', hd'', hpath'⟩ := h'.dials d dial' ht
      cases hd.symm.trans hd''
      exact ⟨host, port, ticks, hpath.trans hpath'⟩
  outcomes := h'.outcomes.trans h.outcomes

theorem Courses.mono {R' : Dial × Bool → Dial × Bool → Prop} (hR : ∀ a b, R a b → R' a b)
    (h : Courses R s t) : Courses R' s t where
  dials d dial hd := by
    obtain ⟨dial', hd', hpath⟩ := h.dials d dial hd
    exact ⟨dial', hd', hpath.lift id hR⟩
  made d dial hd hnone := by
    obtain ⟨host, port, ticks, hpath⟩ := h.made d dial hd hnone
    exact ⟨host, port, ticks, hpath.lift id hR⟩
  outcomes := h.outcomes

/-- Nothing becomes of the dials. -/
theorem courses_of_same (dials : ∀ d, t.dial? d = s.dial? d)
    (ticks : ∀ d dial, s.dial? d = some dial → t.ticks d = s.ticks d)
    (outcomes : t.network.outcomes <:+ s.network.outcomes) : Courses R s t where
  dials d dial hd := ⟨dial, (dials d).trans hd, by rw [ticks d dial hd]⟩
  made d dial hd hnone := by
    rw [dials, hnone] at hd
    cases hd
  outcomes := outcomes

theorem Courses.refl (s : Session) : Courses R s s :=
  courses_of_same (fun _ => rfl) (fun _ _ _ => rfl) List.suffix_rfl

/-- One dial takes some steps, the last of which arms or disarms its timer at most. -/
theorem courses_revise (t : Session) (hd : s.dial? d = some dial)
    (dials : ∀ d', t.dial? d' = s.dial? d')
    (ticks : ∀ d', d' ≠ d → t.ticks d' = s.ticks d')
    (outcomes : t.network.outcomes <:+ s.network.outcomes)
    (path : Relation.ReflTransGen R (dial, s.ticks d) (new, t.ticks d)) (jobs : List Job) :
    Courses R s (t.revise d new jobs) := by
  have htd : t.dial? d = some dial := (dials d).trans hd
  refine ⟨fun d' dial' hd' => ?_, fun d' dial' hd' hnone => ?_, outcomes⟩
  · by_cases h : d' = d
    · subst h
      cases hd.symm.trans hd'
      exact ⟨new, by rw [dial?_revise htd, if_pos rfl], path⟩
    · refine ⟨dial', by rw [dial?_revise htd, if_neg h, dials, hd'], ?_⟩
      show Relation.ReflTransGen R _ (dial', t.ticks d')
      rw [ticks d' h]
  · by_cases h : d' = d
    · rw [h, hd] at hnone
      cases hnone
    · rw [dial?_revise htd, if_neg h, dials, hnone] at hd'
      cases hd'

theorem courses_revise_self (hd : s.dial? d = some dial)
    (step : R (dial, s.ticks d) (new, s.ticks d)) (jobs : List Job) :
    Courses R s (s.revise d new jobs) :=
  courses_revise s hd (fun _ => rfl) (fun _ _ => rfl) List.suffix_rfl (.single step) jobs

theorem courses_popped (ready : List Job) (s : Session) : Courses R s (s.popped ready) :=
  courses_of_same (fun _ => rfl) (fun _ _ _ => rfl) List.suffix_rfl

/-! ### Errands -/

theorem courses_opening (outcome : Outcome) (s : Session) : Courses R s (s.opening outcome) :=
  courses_of_same (fun _ => rfl) (fun _ _ _ => rfl) List.suffix_rfl

theorem courses_racing (script : List (Reaction Request)) (s : Session) :
    Courses R s (s.racing script) := by
  unfold racing
  split
  · exact .refl s
  · exact courses_of_same (fun _ => rfl) (fun _ _ _ => rfl) List.suffix_rfl

/-- An attempt ends. -/
theorem courses_of_attemptEnds (hd : s.dial? d = some dial) (h : AttemptEnds d dial s t) :
    Courses (Dial.Proceeds link) s t := by
  cases h with
  | opened script =>
    have hd' : ((s.opening dial.attempt.outcome).racing script).dial? d = some dial := by
      simpa using hd
    exact ((courses_opening _ s).trans (courses_racing script _)).trans
      (courses_revise_self hd' (.attempt (.opens _)) _)
  | closed result why script =>
    have hd' : (s.racing script).dial? d = some dial := by simpa using hd
    exact (courses_racing script s).trans (courses_revise_self hd' (.attempt (.fails why)) _)

theorem courses_armedFor (x : Float) (d : Nat) (s : Session) :
    Courses R s (s.armedFor x (.attempt d)) :=
  courses_of_same (fun _ => rfl) (fun _ _ _ => by simp [ticks_armedFor]) List.suffix_rfl

/-- An attempt waits for the network, or ends at once. -/
theorem courses_of_awaits {outcome : Outcome} (hd : s.dial? d = some dial)
    (tame : outcome.Tame ∨ dial.attempt.wake = .cancelled ∨ dial.attempt.cancelAsked = true)
    (h : Awaits d dial outcome s t) : Courses (Dial.Proceeds link) s t := by
  have hwaits : Courses (Dial.Proceeds link) s (s.awaiting d dial outcome) :=
    courses_revise_self hd (.attempt (.waits tame)) []
  cases h with
  | ends hends => exact hwaits.trans (courses_of_attemptEnds (dial?_awaiting hd outcome) hends)
  | hangs => exact hwaits
  | timed x => exact hwaits.trans (courses_armedFor x d _)

theorem courses_disarmed (alarm : Alarm) (h : ∀ d, alarm ≠ .dialTimeout d) (s : Session) :
    Courses R s (s.disarmed alarm) :=
  courses_of_same (fun _ => rfl) (fun d _ _ => by simp [ticks_disarmed, h d]) List.suffix_rfl

variable {ask : Request → Act Session Answer}

/-- A dial that begins arms its timer, unless it was cancelled before or cannot be timed. -/
theorem courses_of_begin_dial (hd : s.dial? d = some dial) (settings : s.link.settings = link)
    (fresh : dial.stage = .fresh) (ends : (beginDial d).Ends s t) :
    Courses (Dial.Proceeds link) s t := by
  rcases beginDial_cases hd with ⟨hc, e⟩ | ⟨x, -, hx, e⟩ | ⟨-, hx, e⟩ <;>
    rw [(ends_ok_iff e).mp ends]
  · exact courses_revise_self hd (.stillborn fresh hc) _
  · rw [settings] at hx
    refine courses_revise (s.armedFor x (.dialTimeout d)) hd (fun _ => rfl)
      (fun d' hne => ?_) List.suffix_rfl ?_ _
    · simp [ticks_armedFor, Ne.symm hne]
    · simpa [ticks_armedFor] using .single (.begins fresh (by simp [hx]))
  · rw [settings] at hx
    exact courses_revise_self hd (.dies fresh hx) _

/-- An attempt that begins ends at once, or waits for the network. -/
theorem courses_of_begin_attempt (hd : s.dial? d = some dial) (next : s.nextOutcome.Tame)
    (ends : (beginAttempt d).Ends s t) : Courses (Dial.Proceeds link) s t := by
  have hask : Courses (Dial.Proceeds link) s (s.asking dial) :=
    courses_of_same (fun _ => rfl) (fun _ _ _ => rfl) (List.tail_suffix _)
  have hd' : (s.asking dial).dial? d = some dial := hd
  rcases beginAttempt_cases hd with ⟨u, hu, e⟩ | ⟨u, hu, e⟩ <;> rw [(ends_ok_iff e).mp ends]
  · exact courses_of_attemptEnds hd hu
  · exact hask.trans (courses_of_awaits hd' (.inl next) hu)

/-- An attempt that is run again ends, or waits for something else, unless it is over. -/
theorem courses_of_resume_attempt (hd : s.dial? d = some dial)
    (ends : (resumeAttempt d).Ends s t) : Courses (Dial.Proceeds link) s t := by
  have hoff : Courses (Dial.Proceeds link) s (s.tellingOff d) :=
    (courses_disarmed (.attempt d) nofun s).trans
      (courses_of_same (fun _ => rfl) (fun _ _ _ => rfl) List.suffix_rfl)
  have hd' : (s.tellingOff d).dial? d = some dial := hd
  rcases resumeAttempt_cases hd with ⟨hc, ⟨u, hu, e⟩ | ⟨ending, delay, u, hu, e⟩⟩ |
    ⟨-, ⟨u, hu, e⟩ | e⟩ <;> rw [(ends_ok_iff e).mp ends]
  · exact hoff.trans (courses_of_attemptEnds hd' hu)
  · exact hoff.trans (courses_of_awaits hd' (.inr hc) hu)
  · exact courses_of_attemptEnds hd hu
  · exact .refl _

/-- The dial of an errand goes its way, unless it goes on. -/
theorem courses_of_errand (hs : s.Sound link) (next : s.nextOutcome.Tame)
    {errand : Errand} {ready : List Job}
    (h : s.loop.ready = errand.job d :: ready) (hd : s.dial? d = some dial)
    (other : errand ≠ .resumeDial) (ends : (runJob ask (errand.job d)).Ends (s.popped ready) t) :
    Courses (Dial.Proceeds link) s t := by
  have hd' : (s.popped ready).dial? d = some dial := hd
  refine (courses_popped ready s).trans ?_
  cases errand with
  | resumeDial => exact absurd rfl other
  | beginDial =>
    exact courses_of_begin_dial hd' hs.settings (hs.due h hd).task.begun.1 ends
  | beginAttempt => exact courses_of_begin_attempt hd' next ends
  | resumeAttempt => exact courses_of_resume_attempt hd' ends
  | attemptEnded =>
    rcases attemptEnded_cases hd' with ⟨result, -, ha, e⟩ | ⟨-, e⟩ <;>
      rw [(ends_ok_iff e).mp ends]
    · exact courses_revise_self hd' (.learns ha) _
    · exact .refl _
  | shieldDone =>
    rcases shieldDone_cases hd' with ⟨-, e⟩ | ⟨-, e⟩ <;> rw [(ends_ok_iff e).mp ends]
    · exact .refl _
    · exact courses_revise_self hd' (.attempt .freed) _
  | releaseDial =>
    rcases releaseDial_cases hd' with ⟨hw, -, e⟩ | ⟨-, e⟩ <;> rw [(ends_ok_iff e).mp ends]
    · exact courses_revise_self hd' (.woken (by rw [hw]; nofun)) _
    · exact .refl _
  | settleDial =>
    rcases settleDial_cases hd' with ⟨⟨b, hw⟩, -, e⟩ | ⟨-, e⟩ <;> rw [(ends_ok_iff e).mp ends]
    · exact courses_revise_self hd' (.woken (by rw [hw]; nofun)) _
    · exact .refl _
  | closeOpened =>
    rcases closeOpened_cases hd' with ⟨i, -, e⟩ | ⟨-, e⟩ <;> rw [(ends_ok_iff e).mp ends]
    · exact courses_of_same (fun _ => rfl) (fun _ _ _ => rfl) List.suffix_rfl
    · exact .refl _

/-- The timer of a dial is disarmed, which it can be when the dial does not wait for it. -/
theorem courses_disarmed_timeout (link : Settings) (hd : s.dial? d = some dial)
    (path : Relation.ReflTransGen (Dial.Proceeds link) (dial, s.ticks d) (new, false))
    (jobs : List Job) :
    Courses (Dial.Proceeds link) s ((s.disarmed (.dialTimeout d)).revise d new jobs) := by
  have hself : (s.disarmed (.dialTimeout d)).ticks d = false := by simp [ticks_disarmed]
  rw [← hself] at path
  refine courses_revise (s.disarmed (.dialTimeout d)) hd (fun _ => rfl) (fun d' hne => ?_)
    List.suffix_rfl path jobs
  simp [ticks_disarmed, Ne.symm hne]

/-- A timer that goes off wakes a dial or an attempt, if it waits. -/
theorem courses_of_alarm {alarm : Alarm} (h : (goOff alarm).Ends (s.disarmed alarm) t) :
    Courses (Dial.Proceeds link) s t := by
  cases goesOff_of_ends h with
  | @unwaited d busy =>
    cases hd : s.dial? d with
    | none =>
      refine courses_of_same (fun _ => rfl) (fun d' dial hd' => ?_) List.suffix_rfl
      have hne : d' ≠ d := by
        rintro rfl
        rw [hd] at hd'
        cases hd'
      simp [ticks_disarmed, Ne.symm hne]
    | some dial =>
      have hd' : (s.disarmed (.dialTimeout d)).dial? d = some dial := hd
      rw [← revise_self hd']
      exact courses_disarmed_timeout link hd
        (.single (.rings fun hs hw => busy dial hd' ⟨hs, hw⟩)) []
  | @wakesDial d dial present stage _ =>
    have hd : s.dial? d = some dial := present
    exact courses_disarmed_timeout link hd
      (.head (.woken (by rw [stage]; nofun)) (.single (.rings fun _ => nofun))) _
  | @unheard d => exact courses_disarmed (.attempt d) nofun s
  | @wakesAttempt d _ present _ =>
    exact (courses_disarmed (.attempt d) nofun s).trans
      (courses_revise_self present (.attempt .woken) _)
  | ticker =>
    refine (courses_disarmed .ticker nofun s).trans ?_
    exact courses_of_same (fun _ => rfl) (fun _ _ _ => rfl) List.suffix_rfl

/-! ### Work and turns -/

theorem courses_of_alike (h : Alike s t) : Courses R s t := by
  refine courses_of_same h.dial? (fun d _ _ => ?_) (h.outcomes ▸ List.suffix_rfl)
  rw [ticks_eq_alarms, h.alarms, ← ticks_eq_alarms]

theorem courses_of_change (h : Change A s t) : Courses R s t := by
  cases h with
  | plain alike => exact courses_of_alike alike
  | listen | put | mark | report | signal =>
    exact courses_of_same (fun _ => rfl) (fun _ _ _ => rfl) List.suffix_rfl

theorem courses_of_part (h : Part s t) : Courses (Dial.Step link) s t := by
  cases h with
  | alike h => exact courses_of_alike h
  | word | setOut => exact courses_of_same (fun _ => rfl) (fun _ _ _ => rfl) List.suffix_rfl
  | @cancel u d recorded hc =>
    have hless : Courses (Dial.Step link) u u.dialless :=
      courses_of_same (fun _ => rfl) (fun _ _ _ => rfl) List.suffix_rfl
    refine Courses.trans ?_ hless
    cases hd : s.dial? d with
    | none =>
      obtain ⟨v, hv, rfl | ⟨dial, _, _, _, hd', -⟩⟩ := cancelDial_ok d s
      · cases hv.symm.trans hc
        exact .refl _
      · rw [hd] at hd'
        cases hd'
    | some dial =>
      rcases cancelDial_cases hd with ⟨-, e⟩ | ⟨-, -, -, e⟩ | ⟨-, -, e⟩ <;> cases e.symm.trans hc
      · exact .refl _
      · exact courses_revise_self hd .cancelled _
      · exact courses_revise_self hd .asked _
  | dial host port =>
    refine ⟨fun d dial hd => ?_, fun d dial hd hnone => ?_, List.suffix_rfl⟩
    · have hlt : d < s.network.dials.size := (Array.getElem?_eq_some_iff.mp hd).1
      refine ⟨dial, ?_, .refl⟩
      rw [dial?_dialling, if_neg (by omega), hd]
    · rw [dial?_dialling] at hd
      split at hd
      · cases hd
        exact ⟨host, port, _, .refl⟩
      · rw [hnone] at hd
        cases hd

theorem courses_of_work (h : Work A s t) : Courses (Dial.Step link) s t := by
  refine h.keeps (P := Courses (Dial.Step link) s) ?_ ?_ ?_ ?_ (.refl s)
  · exact fun hc h => h.trans (courses_of_change hc)
  · exact fun hp h => h.trans (courses_of_part hp)
  · intro u h
    obtain ⟨hnetwork, hloop, -⟩ := left_keeps u
    refine h.trans (courses_of_same (fun d => ?_) (fun d _ _ => ?_) ?_)
    · rw [dial?, (left_keeps_dials u).1]
      rfl
    · rw [ticks, hloop]
      rfl
    · have hparted : u.parted.network.outcomes = u.network.outcomes := by
        unfold parted closedHeld
        split <;> rfl
      exact (congrArg Network.outcomes hnetwork).trans hparted ▸ List.suffix_rfl
  · intro u h
    refine h.trans ?_
    unfold forgotten
    split <;> exact courses_of_same (fun _ => rfl) (fun _ _ _ => rfl) List.suffix_rfl

theorem courses_dialEnded (hd : s.dial? d = some dial) {attempt : Attempt}
    (ha : attempt = dial.attempt ∨ attempt = dial.attempt.forsaken) (jobs : List Job) :
    Courses (Dial.Step link) s
      ((s.disarmed (.dialTimeout d)).revise d { dial with stage := .ended, attempt } jobs) := by
  refine courses_revise (s.disarmed (.dialTimeout d)) hd (fun _ => rfl) (fun d' hne => ?_)
    List.suffix_rfl ?_ jobs
  · simp [ticks_disarmed, Ne.symm hne]
  · simpa [ticks_disarmed] using .single (.ends ha)

/-- A dial that goes on settles, or it is over and its word may be work. -/
theorem courses_of_resumes (hd : s.dial? d = some dial) (h : Resumes A d dial s t) :
    Courses (Dial.Step link) s t := by
  have hended : Courses (Dial.Step link) s (s.dialEnded d dial) :=
    courses_dialEnded hd (.inl rfl) []
  have hup : Courses (Dial.Step link) s (s.dialGivenUp d dial) :=
    courses_dialEnded hd (.inr rfl) _
  have hsame : ∀ {v w : Session}, (∀ d, w.dial? d = v.dial? d) → w.loop = v.loop →
      w.network.outcomes = v.network.outcomes → Courses (Dial.Step link) v w := by
    intro v w hdials hloop hout
    exact courses_of_same hdials (fun d _ _ => by rw [ticks, hloop]; rfl) (hout ▸ List.suffix_rfl)
  cases h with
  | late => exact .refl s
  | settles stage => exact courses_revise_self hd (.proceeds (.settles stage)) _
  | dies => exact hended
  | givesUp => exact hup
  | refused => exact hended.trans (hsame (fun _ => rfl) rfl rfl)
  | ignored => exact hup.trans (hsame (fun _ => rfl) rfl rfl)
  | @connects i _ _ _ _ listeners =>
    have hheld : Courses (Dial.Step link) (s.dialEnded d dial)
        (((s.dialEnded d dial).dialless.holding i).movedTo .connected) :=
      hsame (fun _ => rfl) rfl rfl
    exact (hended.trans hheld).trans (courses_of_work listeners)
  | disconnects _ text _ listeners =>
    have hleft : Courses (Dial.Step link) (s.dialGivenUp d dial)
        ((s.failing d dial text).movedTo .disconnected) :=
      hsame (fun _ => rfl) rfl rfl
    exact (hup.trans hleft).trans (courses_of_work listeners)

end Session
end DiagnosticWatch
