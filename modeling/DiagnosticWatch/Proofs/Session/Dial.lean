/-
# What the acts on a dial do

Every act on a dial replaces the dial by another one and makes a few jobs for
it ready (`Session.revise`). Besides, it may arm or disarm a timer, open a
connection, or take an outcome from the network. For each act one theorem
lists what it may do and when.

Key definitions: `Errand`, `Dial.word`, `Session.revise`,
`Session.AttemptEnds`, `Session.Awaits`.
Key theorems: `Session.cancelDial_cases`, `Session.beginDial_cases`,
`Session.beginAttempt_cases`, `Session.resumeAttempt_cases`,
`Session.resumeDial_cases`.
-/
import DiagnosticWatch.Proofs.Act
import DiagnosticWatch.Session.Run

namespace DiagnosticWatch

/-- The dial when its attempt has ended. -/
def Dial.ending (result : Result) (dial : Dial) : Dial :=
  { dial with attempt := { dial.attempt with stage := .ended result } }

/-- The dial when its attempt waits for the network. -/
def Dial.attempting (outcome : Outcome) (dial : Dial) : Dial :=
  { dial with attempt := { dial.attempt with
      stage := .waiting, wake := .waiting, cancelAsked := false, outcome } }

/-- An attempt that has been given up. One that waits has been woken, and one that
runs later is marked. -/
def Attempt.forsaken (attempt : Attempt) : Attempt :=
  match attempt.stage, attempt.wake with
  | .ended _, _ => attempt
  | .absent, _ => { attempt with abandoned := true }
  | .waiting, .waiting => { attempt with abandoned := true, wake := .cancelled }
  | _, _ => { attempt with abandoned := true, cancelAsked := true }

/-- What a job does for a dial. -/
inductive Errand where
  | beginDial
  | resumeDial
  | beginAttempt
  | resumeAttempt
  | attemptEnded
  | shieldDone
  | releaseDial
  | settleDial
  | closeOpened
deriving DecidableEq

/-- The job that does an errand for the dial `d`. -/
def Errand.job (d : Nat) : Errand → Job
  | .beginDial => .beginDial d
  | .resumeDial => .resumeDial d
  | .beginAttempt => .beginAttempt d
  | .resumeAttempt => .resumeAttempt d
  | .attemptEnded => .attemptEnded d
  | .shieldDone => .shieldDone d
  | .releaseDial => .releaseDial d
  | .settleDial => .settleDial d
  | .closeOpened => .closeOpened d

/-- What gets ready when an attempt is given up. -/
def Attempt.forsakenErrands (attempt : Attempt) : List Errand :=
  match attempt.stage, attempt.wake with
  | .ended _, _ => [.closeOpened]
  | .waiting, .waiting => [.resumeAttempt]
  | _, _ => []

/-- Who is told of the end of an attempt. -/
def Attempt.endErrands (attempt : Attempt) : List Errand :=
  (if attempt.shielded then [.attemptEnded] else []) ++
    if attempt.abandoned then [.closeOpened] else []

/-- Every job is an errand for a dial, a script or a run of the ticker. -/
theorem Job.cases_errand (job : Job) :
    (∃ d errand, job = Errand.job d errand) ∨ (∃ script, job = .race script) ∨ job = .ticker := by
  cases job with
  | beginDial d => exact .inl ⟨d, .beginDial, rfl⟩
  | resumeDial d => exact .inl ⟨d, .resumeDial, rfl⟩
  | beginAttempt d => exact .inl ⟨d, .beginAttempt, rfl⟩
  | resumeAttempt d => exact .inl ⟨d, .resumeAttempt, rfl⟩
  | attemptEnded d => exact .inl ⟨d, .attemptEnded, rfl⟩
  | shieldDone d => exact .inl ⟨d, .shieldDone, rfl⟩
  | releaseDial d => exact .inl ⟨d, .releaseDial, rfl⟩
  | settleDial d => exact .inl ⟨d, .settleDial, rfl⟩
  | closeOpened d => exact .inl ⟨d, .closeOpened, rfl⟩
  | race script => exact .inr (.inl ⟨script, rfl⟩)
  | ticker => exact .inr (.inr rfl)

/-- What an attempt comes to if it opens no connection: it was cancelled, or the network
failed it, or it could not be timed. -/
inductive Attempt.Fails (attempt : Attempt) : Result → Prop
  | cancelled (h : attempt.wake = .cancelled ∨ attempt.cancelAsked = true) :
      Fails attempt .cancelled
  | failed {unexpected : Bool} (h : attempt.outcome.ending = .fails unexpected) :
      Fails attempt (.failed unexpected)
  | untimed (ending : attempt.outcome.ending ≠ .hangs)
      (late : attempt.outcome.delay.exceeds 0 = true)
      (h : attempt.outcome.delay.toFloat? = none) : Fails attempt (.failed true)

theorem Attempt.Fails.not_opened {attempt : Attempt} {result : Result} (h : attempt.Fails result)
    (i : Nat) : result ≠ .opened i := by
  cases h <;> nofun

/-- Whether the dial has been cancelled and has not learned of it. -/
def Dial.isCancelled (dial : Dial) : Bool :=
  dial.wake = .cancelled ∨ dial.cancelAsked

theorem Dial.isCancelled_eq_false {dial : Dial} :
    dial.isCancelled = false ↔ dial.wake ≠ .cancelled ∧ dial.cancelAsked = false := by
  simp [isCancelled]

/-- What the dial tells the link when it runs next, if anything: that it has opened
a connection, or that it has failed. -/
def Dial.word (dial : Dial) : Option Result :=
  match dial.stage, dial.shield with
  | .waiting, .resolved (.opened i) => some (.opened i)
  | .waiting, .resolved (.failed false) => some (.failed false)
  | .settling timedOut, _ => if timedOut ∧ !dial.isCancelled then some (.failed false) else none
  | _, _ => none

theorem Dial.word_of_settling {dial : Dial} {timedOut : Bool} (h : dial.stage = .settling timedOut) :
    dial.word = if timedOut ∧ !dial.isCancelled then some (.failed false) else none := by
  simp only [word, h]

namespace Session

open Act

variable {s : Session} {d : Nat} {dial : Dial}

/-! ### Single changes -/

@[simp] theorem onLink_apply (f : Link → Link) (s : Session) :
    onLink f s = .ok () { s with link := f s.link } := rfl

@[simp] theorem onLoop_apply (f : Loop → Loop) (s : Session) :
    onLoop f s = .ok () { s with loop := f s.loop } := rfl

@[simp] theorem onNetwork_apply (f : Network → Network) (s : Session) :
    onNetwork f s = .ok () { s with network := f s.network } := rfl

theorem enqueue_apply (job : Job) (s : Session) :
    enqueue job s = .ok () { s with loop := { s.loop with ready := s.loop.ready ++ [job] } } := rfl

/-- The timers for a purpose are disarmed. -/
def disarmed (alarm : Alarm) (s : Session) : Session :=
  { s with loop := { s.loop with timers := s.loop.timers.filter (·.alarm ≠ alarm) } }

@[simp] theorem disarm_apply (alarm : Alarm) (s : Session) :
    disarm alarm s = .ok () (s.disarmed alarm) := rfl

/-- A timer is armed. -/
def armedFor (seconds : Float) (alarm : Alarm) (s : Session) : Session :=
  { s with loop := { s.loop with timers := s.loop.timers ++ [⟨s.loop.now + seconds, alarm⟩] } }

theorem arm_apply (seconds : Number) (alarm : Alarm) (s : Session) :
    arm seconds alarm s = match seconds.toFloat? with
      | some x => .ok () (s.armedFor x alarm)
      | none => .error .overflow s := by
  unfold arm inSeconds
  cases seconds.toFloat? <;> rfl

/-- The dial of number `d` is replaced by `dial`, and `jobs` get ready. -/
def revise (d : Nat) (dial : Dial) (jobs : List Job) (s : Session) : Session :=
  { s with
    network := { s.network with dials := s.network.dials.setIfInBounds d dial }
    loop := { s.loop with ready := s.loop.ready ++ jobs } }

theorem revise_self (h : s.dial? d = some dial) : s.revise d dial [] = s := by
  have : s.network.dials.setIfInBounds d dial = s.network.dials := by
    obtain ⟨hlt, hd⟩ := Array.getElem?_eq_some_iff.mp h
    refine Array.ext (by simp) fun i hi hi' => ?_
    rw [Array.getElem_setIfInBounds]
    split
    · rename_i hdi
      subst hdi
      exact hd.symm
    · rfl
  simp [revise, this]

theorem size_revise (d : Nat) (new : Dial) (jobs : List Job) (s : Session) :
    (s.revise d new jobs).network.dials.size = s.network.dials.size := by
  simp [revise]

@[simp] theorem revise_revise (s : Session) (old new : Dial) (jobs more : List Job) :
    (s.revise d old jobs).revise d new more = s.revise d new (jobs ++ more) := by
  simp [revise, Array.setIfInBounds_setIfInBounds]

theorem dial?_revise (h : s.dial? d = some dial) (new : Dial) (jobs : List Job) (d' : Nat) :
    (s.revise d new jobs).dial? d' = if d' = d then some new else s.dial? d' := by
  unfold dial? at h
  have hlt : d < s.network.dials.size := (Array.getElem?_eq_some_iff.mp h).1
  simp only [revise, dial?, Array.getElem?_setIfInBounds]
  by_cases hd : d' = d
  · subst hd
    simp [hlt]
  · simp [hd, Ne.symm hd]

@[simp] theorem onDial_revise (f : Dial → Dial) (s : Session) (dial : Dial) (jobs : List Job) :
    onDial d f (s.revise d dial jobs) = .ok () (s.revise d (f dial) jobs) := by
  have : (s.network.dials.setIfInBounds d dial).modify d f =
      s.network.dials.setIfInBounds d (f dial) := by
    refine Array.ext (by simp) fun i hi hi' => ?_
    have hlt : i < s.network.dials.size := by simpa using hi'
    rw [Array.getElem_modify, Array.getElem_setIfInBounds hlt, Array.getElem_setIfInBounds hlt]
    split <;> rfl
  show EStateM.Result.ok () _ = _
  simp [revise, this]

theorem onDial_apply (h : s.dial? d = some dial) (f : Dial → Dial) :
    onDial d f s = .ok () (s.revise d (f dial) []) := by
  have := onDial_revise (d := d) f s dial []
  rwa [revise_self h] at this

@[simp] theorem onAttempt_revise (f : Attempt → Attempt) (s : Session) (dial : Dial)
    (jobs : List Job) : onAttempt d f (s.revise d dial jobs) =
      .ok () (s.revise d { dial with attempt := f dial.attempt } jobs) :=
  onDial_revise _ s dial jobs

theorem onAttempt_apply (h : s.dial? d = some dial) (f : Attempt → Attempt) :
    onAttempt d f s = .ok () (s.revise d { dial with attempt := f dial.attempt } []) :=
  onDial_apply h _

@[simp] theorem enqueue_revise (job : Job) (s : Session) (dial : Dial) (jobs : List Job) :
    enqueue job (s.revise d dial jobs) = .ok () (s.revise d dial (jobs ++ [job])) := by
  simp [enqueue_apply, revise]

/-- A connection has been opened. -/
def opening (outcome : Outcome) (s : Session) : Session :=
  let receiver := Receiver.detached.attach.receive outcome.data
  let events : List Event :=
    Receiver.attachEvents outcome.socket ++ [.opened s.network.connections.size]
  { s with
    network := { s.network with connections := s.network.connections.push ⟨receiver, false, none⟩ }
    trace := events.foldl (fun t e => t.record e) s.trace }

theorem openConnection_apply (outcome : Outcome) (s : Session) :
    openConnection outcome s = .ok s.network.connections.size (s.opening outcome) := by
  unfold openConnection opening
  cases outcome.socket <;> rfl

@[simp] theorem dial?_opening (outcome : Outcome) (s : Session) (d : Nat) :
    (s.opening outcome).dial? d = s.dial? d := rfl

/-- A script is ready, if there is one. -/
def racing (script : List (Reaction Request)) (s : Session) : Session :=
  if script.isEmpty then s
  else { s with loop := { s.loop with ready := s.loop.ready ++ [.race script] } }

theorem enqueueRace_apply (script : List (Reaction Request)) (s : Session) :
    enqueueRace script s = .ok () (s.racing script) := by
  unfold enqueueRace racing
  split <;> rfl

@[simp] theorem dial?_racing (script : List (Reaction Request)) (s : Session) (d : Nat) :
    (s.racing script).dial? d = s.dial? d := by
  unfold racing
  split <;> rfl

/-! ### Dials -/

theorem cancelDial_cases (h : s.dial? d = some dial) :
    (dial.stage = .ended ∧ cancelDial d s = .ok () s) ∨
    (dial.stage ≠ .fresh ∧ dial.stage ≠ .ended ∧ dial.wake = .waiting ∧
      cancelDial d s = .ok () (s.revise d { dial with wake := .cancelled } [.resumeDial d])) ∨
    (dial.stage ≠ .ended ∧ (dial.stage = .fresh ∨ dial.wake ≠ .waiting) ∧
      cancelDial d s = .ok () (s.revise d { dial with cancelAsked := true } [])) := by
  unfold cancelDial
  simp only [get_bind_apply, h]
  obtain ⟨host, port, stage, wake, cancelAsked, shield, attempt⟩ := dial
  cases stage <;> cases wake <;> simp [bind_apply, onDial_apply h]

/-- A dial is cancelled by a mark on it, by waking it, or not at all. -/
theorem cancelDial_ok (d : Nat) (s : Session) : ∃ t, cancelDial d s = .ok () t ∧ (t = s ∨
    ∃ dial wake asked jobs, s.dial? d = some dial ∧ (∀ job ∈ jobs, job = .resumeDial d) ∧
      t = s.revise d { dial with wake, cancelAsked := asked } jobs) := by
  cases h : s.dial? d with
  | none =>
    unfold cancelDial
    simp only [get_bind_apply, h]
    exact ⟨s, rfl, .inl rfl⟩
  | some dial =>
    rcases cancelDial_cases h with ⟨-, e⟩ | ⟨-, -, -, e⟩ | ⟨-, -, e⟩
    · exact ⟨_, e, .inl rfl⟩
    · exact ⟨_, e, .inr ⟨dial, .cancelled, dial.cancelAsked, [.resumeDial d], rfl, by simp, rfl⟩⟩
    · exact ⟨_, e, .inr ⟨dial, dial.wake, true, [], rfl, by simp, rfl⟩⟩

/-- To cancel a dial changes it alone. -/
theorem cancelDial_keeps {t : Session} (h : cancelDial d s = .ok () t) :
    t.link = s.link ∧ t.trace = s.trace ∧ t.network.dials.size = s.network.dials.size := by
  obtain ⟨u, hu, hr⟩ := cancelDial_ok d s
  cases hu.symm.trans h
  rcases hr with rfl | ⟨dial, wake, asked, jobs, -, -, rfl⟩
  · exact ⟨rfl, rfl, rfl⟩
  · exact ⟨rfl, rfl, size_revise ..⟩

theorem releaseDial_of_absent (h : s.dial? d = none) : releaseDial d s = .ok () s := by
  unfold releaseDial
  simp only [get_bind_apply, h, pure_apply]

theorem releaseDial_cases (h : s.dial? d = some dial) :
    (dial.stage = .waiting ∧ dial.wake = .waiting ∧
      releaseDial d s = .ok () (s.revise d { dial with wake := .released } [.resumeDial d])) ∨
    (¬ (dial.stage = .waiting ∧ dial.wake = .waiting) ∧ releaseDial d s = .ok () s) := by
  unfold releaseDial wakeDial
  simp only [get_bind_apply, h]
  by_cases hs : dial.stage = .waiting <;> by_cases hw : dial.wake = .waiting <;>
    simp [hs, hw, bind_apply, onDial_apply h, h]

theorem settleDial_cases (h : s.dial? d = some dial) :
    ((∃ b, dial.stage = .settling b) ∧ dial.wake = .waiting ∧
      settleDial d s = .ok () (s.revise d { dial with wake := .released } [.resumeDial d])) ∨
    (¬ ((∃ b, dial.stage = .settling b) ∧ dial.wake = .waiting) ∧ settleDial d s = .ok () s) := by
  unfold settleDial wakeDial
  obtain ⟨host, port, stage, wake, cancelAsked, shield, attempt⟩ := dial
  cases stage <;> by_cases hw : wake = .waiting <;>
    simp [hw, bind_apply, onDial_apply h, h]

theorem arm_revise (seconds : Number) (alarm : Alarm) (s : Session) (dial : Dial)
    (jobs : List Job) : arm seconds alarm (s.revise d dial jobs) =
      match seconds.toFloat? with
      | some x => .ok () ((s.armedFor x alarm).revise d dial jobs)
      | none => .error .overflow (s.revise d dial jobs) := by
  rw [arm_apply]
  cases seconds.toFloat? <;> rfl

/-- A dial cancelled before it runs ends, and one that runs starts its attempt and
waits, or ends if its time cannot be limited. -/
theorem beginDial_cases (h : s.dial? d = some dial) :
    (dial.cancelAsked = true ∧ beginDial d s = .ok () (s.revise d { dial with stage := .ended } [])) ∨
    (∃ x, dial.cancelAsked = false ∧ s.link.settings.connectTimeout.toFloat? = some x ∧
      beginDial d s = .ok () ((s.armedFor x (.dialTimeout d)).revise d
        { dial with
          stage := .waiting
          attempt := { dial.attempt with stage := .fresh, shielded := true } } [.beginAttempt d])) ∨
    (dial.cancelAsked = false ∧ s.link.settings.connectTimeout.toFloat? = none ∧
      beginDial d s = .ok () (s.revise d
        { dial with
          stage := .ended
          attempt := { dial.attempt with stage := .fresh, shielded := true } }
          [.beginAttempt d])) := by
  unfold beginDial
  simp only [get_bind_apply, h]
  have hl : ∀ x jobs, (s.revise d x jobs).link = s.link := fun _ _ => rfl
  obtain ⟨host, port, stage, wake, cancelAsked, shield, attempt⟩ := dial
  cases cancelAsked with
  | true => simp [onDial_apply h]
  | false =>
    cases hx : s.link.settings.connectTimeout.toFloat? <;>
      simp [hx, hl, bind_apply, Act.rescue, arm_revise, onDial_apply h, Fault.isOrdinary]

/-! ### Attempts -/

theorem wakeAttempt_cases (h : s.dial? d = some dial) :
    (dial.attempt.wake = .waiting ∧ wakeAttempt d s = .ok () (s.revise d
      { dial with attempt := { dial.attempt with wake := .released } } [.resumeAttempt d])) ∨
    (dial.attempt.wake ≠ .waiting ∧ wakeAttempt d s = .ok () s) := by
  unfold wakeAttempt
  simp only [get_bind_apply, h]
  by_cases hw : dial.attempt.wake = .waiting <;> simp [hw, bind_apply, onAttempt_apply h]

theorem endAttempt_apply (h : s.dial? d = some dial) (result : Result) :
    endAttempt d result s = .ok () (s.revise d (dial.ending result)
      (dial.attempt.endErrands.map (Errand.job d))) := by
  unfold endAttempt Attempt.endErrands Dial.ending
  simp only [get_bind_apply, h]
  obtain ⟨host, port, stage, wake, cancelAsked, shield, attempt⟩ := dial
  obtain ⟨aStage, aWake, aAsked, shielded, abandoned, outcome⟩ := attempt
  cases shielded <;> cases abandoned <;> simp [bind_apply, onAttempt_apply h, Errand.job]

theorem attemptEnded_cases (h : s.dial? d = some dial) :
    (∃ result, dial.shield = .waiting ∧ dial.attempt.stage = .ended result ∧
      attemptEnded d s = .ok () (s.revise d
        { dial with shield := if result = .cancelled then .cancelled else .resolved result }
        [.shieldDone d, .releaseDial d])) ∨
    ((dial.shield ≠ .waiting ∨ ∀ result, dial.attempt.stage ≠ .ended result) ∧
      attemptEnded d s = .ok () s) := by
  unfold attemptEnded
  simp only [get_bind_apply, h]
  cases hs : dial.shield <;> cases ha : dial.attempt.stage <;> simp [bind_apply, onDial_apply h]

theorem shieldDone_cases (h : s.dial? d = some dial) :
    ((∃ result, dial.attempt.stage = .ended result) ∧ shieldDone d s = .ok () s) ∨
    ((∀ result, dial.attempt.stage ≠ .ended result) ∧ shieldDone d s = .ok () (s.revise d
      { dial with attempt := { dial.attempt with shielded := false } } [])) := by
  unfold shieldDone
  simp only [get_bind_apply, h]
  obtain ⟨host, port, stage, wake, cancelAsked, shield, attempt⟩ := dial
  obtain ⟨aStage, aWake, aAsked, shielded, abandoned, outcome⟩ := attempt
  cases aStage <;> simp [onAttempt_apply h]

theorem abandonAttempt_apply (h : s.dial? d = some dial) :
    abandonAttempt d s = .ok () (s.revise d { dial with attempt := dial.attempt.forsaken }
      (dial.attempt.forsakenErrands.map (Errand.job d))) := by
  unfold abandonAttempt cancelAttempt
  simp only [get_bind_apply, h]
  have hd : ∀ x jobs, (s.revise d x jobs).dial? d = some x := fun x jobs => by
    simp [dial?_revise h]
  have hq := enqueue_revise (d := d) (.closeOpened d) s dial []
  rw [revise_self h] at hq
  obtain ⟨host, port, stage, wake, cancelAsked, shield, attempt⟩ := dial
  obtain ⟨aStage, aWake, aAsked, shielded, abandoned, outcome⟩ := attempt
  cases aStage <;> cases aWake <;>
    simp [bind_apply, onAttempt_apply h, hd, hq, Attempt.forsaken, Attempt.forsakenErrands,
      Errand.job]

/-- How an attempt ends: it has opened a connection, or it has not. What is asked for in between
gets ready first. -/
inductive AttemptEnds (d : Nat) (dial : Dial) (s : Session) : Session → Prop
  | opened (script : List (Reaction Request))
      (h : script = dial.attempt.outcome.race ∨ script = []) :
      AttemptEnds d dial s (((s.opening dial.attempt.outcome).racing script).revise d
        (dial.ending (.opened s.network.connections.size))
        (dial.attempt.endErrands.map (Errand.job d)))
  | closed (result : Result) (why : dial.attempt.Fails result) (script : List (Reaction Request))
      (h : script = dial.attempt.outcome.race ∨ script = []) :
      AttemptEnds d dial s ((s.racing script).revise d (dial.ending result)
        (dial.attempt.endErrands.map (Errand.job d)))

theorem attemptEnds_of_endAttempt (h : s.dial? d = some dial) {result : Result}
    (why : dial.attempt.Fails result) :
    ∃ t, AttemptEnds d dial s t ∧ endAttempt d result s = .ok () t :=
  ⟨_, .closed result why [] (.inr rfl), endAttempt_apply h result⟩

theorem completeAttempt_cases (h : s.dial? d = some dial) :
    (∃ t, AttemptEnds d dial s t ∧ completeAttempt d dial.attempt.outcome s = .ok () t) ∨
    completeAttempt d dial.attempt.outcome s = .ok () s := by
  unfold completeAttempt
  cases hending : dial.attempt.outcome.ending with
  | opens =>
    refine .inl ⟨_, .opened dial.attempt.outcome.race (.inl rfl), ?_⟩
    have h' : ((s.opening dial.attempt.outcome).racing dial.attempt.outcome.race).dial? d =
        some dial := by simpa using h
    simp [bind_apply, openConnection_apply, enqueueRace_apply, endAttempt_apply h']
  | fails unexpected =>
    refine .inl ⟨_, .closed (.failed unexpected) (.failed hending) dial.attempt.outcome.race
      (.inl rfl), ?_⟩
    have h' : (s.racing dial.attempt.outcome.race).dial? d = some dial := by simpa using h
    simp [bind_apply, enqueueRace_apply, endAttempt_apply h']
  | hangs => exact .inr rfl

/-- The attempt of a dial waits for the network. -/
def awaiting (d : Nat) (dial : Dial) (outcome : Outcome) (s : Session) : Session :=
  s.revise d (dial.attempting outcome) []

theorem dial?_awaiting (h : s.dial? d = some dial) (outcome : Outcome) :
    (s.awaiting d dial outcome).dial? d = some (dial.attempting outcome) := by
  unfold awaiting
  rw [dial?_revise h]
  simp

/-- An attempt that is to wait for the network ends at once, or waits, with a timer or without. -/
inductive Awaits (d : Nat) (dial : Dial) (outcome : Outcome) (s : Session) : Session → Prop
  | ends {t : Session} (h : AttemptEnds d (dial.attempting outcome) (s.awaiting d dial outcome) t) :
      Awaits d dial outcome s t
  | hangs : Awaits d dial outcome s (s.awaiting d dial outcome)
  | timed (x : Float) :
      Awaits d dial outcome s ((s.awaiting d dial outcome).armedFor x (.attempt d))

theorem awaitNetwork_ok (h : s.dial? d = some dial) (outcome : Outcome) :
    ∃ t, Awaits d dial outcome s t ∧ awaitNetwork d outcome s = .ok () t := by
  have h' := dial?_awaiting h outcome
  have hwaits : onAttempt d (fun a => { a with
      stage := .waiting, wake := .waiting, cancelAsked := false, outcome }) s =
      .ok () (s.awaiting d dial outcome) := onAttempt_apply h _
  unfold awaitNetwork
  rw [bind_of_ok hwaits]
  split
  · exact ⟨_, .hangs, rfl⟩
  rename_i hending
  split
  · rename_i hlate
    unfold Act.rescue
    rw [arm_apply]
    cases hx : outcome.delay.toFloat? with
    | some x => exact ⟨_, .timed x, rfl⟩
    | none =>
      obtain ⟨t, ht, e⟩ := attemptEnds_of_endAttempt h' (.untimed hending hlate hx)
      exact ⟨t, .ends ht, e⟩
  · rcases completeAttempt_cases h' with ⟨t, ht, e⟩ | e
    · exact ⟨t, .ends ht, e⟩
    · exact ⟨_, .hangs, e⟩

/-- What the network will do on the next attempt. -/
def nextOutcome (s : Session) : Outcome :=
  s.network.outcomes.headD .refusal

/-- The network is asked for an attempt of a dial. -/
def asking (dial : Dial) (s : Session) : Session :=
  { s with
    trace := s.trace.record (.attempt dial.host dial.port s.loop.now)
    network := { s.network with outcomes := s.network.outcomes.tail } }

/-- An attempt that begins has been cancelled, or is made, and waits for the network. -/
theorem beginAttempt_cases (h : s.dial? d = some dial) :
    (∃ t, AttemptEnds d dial s t ∧ beginAttempt d s = .ok () t) ∨
    ∃ t, Awaits d dial s.nextOutcome (s.asking dial) t ∧ beginAttempt d s = .ok () t := by
  unfold beginAttempt
  cases hc : dial.attempt.cancelAsked with
  | true =>
    simp only [get_bind_apply, h, hc, ↓reduceIte]
    exact .inl (attemptEnds_of_endAttempt h (.cancelled (.inr hc)))
  | false =>
    simp only [get_bind_apply, h, hc, Bool.false_eq_true, ↓reduceIte]
    have h' : (s.asking dial).dial? d = some dial := h
    rw [bind_of_ok (tell_apply _ s), get_bind_apply, bind_of_ok (onNetwork_apply _ _)]
    exact .inr (awaitNetwork_ok h' s.nextOutcome)

/-- An attempt has learned that it is cancelled. -/
def tellingOff (d : Nat) (s : Session) : Session :=
  let s := s.disarmed (.attempt d)
  { s with network := { s.network with cancelled := s.network.cancelled + 1 } }

/-- An attempt that is run again has been cancelled, and ends or waits for something else; or it
has waited, and ends or hangs. -/
theorem resumeAttempt_cases (h : s.dial? d = some dial) :
    ((dial.attempt.wake = .cancelled ∨ dial.attempt.cancelAsked = true) ∧
      ((∃ t, AttemptEnds d dial (s.tellingOff d) t ∧ resumeAttempt d s = .ok () t) ∨
        ∃ ending delay t, Awaits d dial (dial.attempt.outcome.defying ending delay)
          (s.tellingOff d) t ∧ resumeAttempt d s = .ok () t)) ∨
    (dial.attempt.wake ≠ .cancelled ∧
      ((∃ t, AttemptEnds d dial s t ∧ resumeAttempt d s = .ok () t) ∨
        resumeAttempt d s = .ok () s)) := by
  have h' : (s.tellingOff d).dial? d = some dial := h
  unfold resumeAttempt
  simp only [get_bind_apply, h]
  split
  · rename_i hcancelled
    refine .inl ⟨hcancelled, ?_⟩
    have hb : ∀ f : Unit → Act Session Unit, (disarm (.attempt d) >>= fun _ =>
        onNetwork (fun n => { n with cancelled := n.cancelled + 1 }) >>= f) s =
        f () (s.tellingOff d) := fun f => rfl
    rw [hb]
    cases dial.attempt.outcome.stubborn with
    | yields => exact .inl (attemptEnds_of_endAttempt h' (.cancelled hcancelled))
    | goesOn ending delay => exact .inr ⟨ending, delay, awaitNetwork_ok h' _⟩
  · rename_i hw
    refine .inr ⟨fun hw' => hw (.inl hw'), ?_⟩
    exact completeAttempt_cases h

/-! ### What a dial does when it goes on -/

/-- No dial is under way. -/
def dialless (s : Session) : Session :=
  { s with link := { s.link with dial := none } }

/-- Connection `i` is closed from this side. -/
def closed (i : Nat) (s : Session) : Session :=
  { s with
    network := { s.network with
      connections := s.network.connections.modify i fun c => { c with closing := true } }
    trace := s.trace.record (.close i) }

theorem close_apply (i : Nat) (s : Session) : close i s = .ok () (s.closed i) := rfl

theorem closeOpened_cases (h : s.dial? d = some dial) :
    (∃ i, dial.attempt.stage = .ended (.opened i) ∧ closeOpened d s = .ok () (s.closed i)) ∨
    ((∀ i, dial.attempt.stage ≠ .ended (.opened i)) ∧ closeOpened d s = .ok () s) := by
  unfold closeOpened
  simp only [get_bind_apply, h]
  rcases hs : dial.attempt.stage with _ | _ | _ | (i | _ | _)
  case ended.opened => exact .inl ⟨i, rfl, close_apply i s⟩
  all_goals exact .inr ⟨nofun, rfl⟩

/-- The link takes connection `i`. -/
def holding (i : Nat) (s : Session) : Session :=
  { s with link := { s.link with
      writesTo := some i, readsFrom := some i, lastTraffic := s.loop.now } }

/-- A dial and its timer end. -/
def dialEnded (d : Nat) (dial : Dial) (s : Session) : Session :=
  (s.disarmed (.dialTimeout d)).revise d { dial with stage := .ended } []

/-- A dial and its timer end, and its attempt is given up. -/
def dialGivenUp (d : Nat) (dial : Dial) (s : Session) : Session :=
  (s.disarmed (.dialTimeout d)).revise d
    { dial with stage := .ended, attempt := dial.attempt.forsaken }
    (dial.attempt.forsakenErrands.map (Errand.job d))

theorem dial?_dialEnded (h : s.dial? d = some dial) :
    (s.dialEnded d dial).dial? d = some { dial with stage := .ended } := by
  have h' : (s.disarmed (.dialTimeout d)).dial? d = some dial := h
  unfold dialEnded
  rw [dial?_revise h']
  simp

theorem endDial_apply (h : s.dial? d = some dial) : endDial d s = .ok () (s.dialEnded d dial) := by
  have h' : (s.disarmed (.dialTimeout d)).dial? d = some dial := h
  unfold dialEnded
  simp [endDial, bind_apply, onDial_apply h']

theorem giveUpDial_apply (h : s.dial? d = some dial) :
    (endDial d >>= fun _ => abandonAttempt d) s = .ok () (s.dialGivenUp d dial) := by
  rw [bind_of_ok (endDial_apply h)]
  rw [abandonAttempt_apply (dial?_dialEnded h)]
  unfold dialEnded dialGivenUp
  simp

theorem settle_apply (h : s.dial? d = some dial) (timedOut : Bool) :
    settle d timedOut s = .ok () (s.revise d
      { dial with
        stage := .settling timedOut
        wake := .waiting
        cancelAsked := false
        shield := .cancelled } [.shieldDone d, .settleDial d]) := by
  simp [settle, bind_apply, onDial_apply h]

variable (ask : Request → Act Session Answer)

/-- It is told where the connection of a dial goes. -/
def sayConnected (d : Nat) : Act Session Unit := do
  match (← get).dial? d with
  | some dial => log .info s!"Connected to debug server at {dial.host}:{dial.port.text}"
  | none => pure ()

/-- The link takes the connection of a dial while it is connecting, and closes it
otherwise. -/
theorem dialOpened_apply (h : s.dial? d = some dial) (i : Nat) :
    dialOpened ask d i s = if s.phase ≠ .connecting
      then .ok () ((s.dialEnded d dial).dialless.closed i)
      else (moveTo ask .connected >>= fun _ => sayConnected d)
        ((s.dialEnded d dial).dialless.holding i) := by
  have hp : (s.dialEnded d dial).dialless.phase = s.phase := rfl
  unfold dialOpened
  rw [bind_of_ok (endDial_apply h), bind_of_ok (onLink_apply _ _), get_bind_apply]
  show (if (s.dialEnded d dial).dialless.phase ≠ .connecting then _ else _ : Act Session Unit)
    (s.dialEnded d dial).dialless = _
  rw [hp]
  split
  · exact close_apply i _
  · rfl

/-- Only a link that is connecting heeds the failure of a dial. -/
theorem dialFailed_apply (h : s.dial? d = some dial) (reason : String) :
    ∃ text, dialFailed ask d reason s =
      (if s.phase = .connecting then moveTo ask .disconnected else pure () : Act Session Unit)
        { (s.dialGivenUp d dial).dialless with
          trace := s.trace.record (.log .debug text) } := by
  have h' : (s.dialGivenUp d dial).dial? d =
      some { dial with stage := .ended, attempt := dial.attempt.forsaken } := by
    have : (s.disarmed (.dialTimeout d)).dial? d = some dial := h
    unfold dialGivenUp
    rw [dial?_revise this]
    simp
  refine ⟨s!"Debug server at {dial.host}:{dial.port.text} not reachable: {reason}", ?_⟩
  unfold dialFailed
  have hb : ∀ f : Unit → Act Session Unit, (endDial d >>= fun _ => abandonAttempt d >>= f) s =
      f () (s.dialGivenUp d dial) := fun f => by
    rw [← bind_assoc, bind_of_ok (giveUpDial_apply h)]
  rw [hb, get_bind_apply, h']
  rfl

/-- A dial that goes on says its word, or has nothing to say. -/
theorem resumeDial_cases (h : s.dial? d = some dial) :
    (∃ i, dial.word = some (.opened i) ∧ dial.stage = .waiting ∧
      dial.shield = .resolved (.opened i) ∧ resumeDial ask d s = dialOpened ask d i s) ∨
    (∃ reason, dial.word = some (.failed false) ∧
      (dial.stage = .waiting → dial.shield = .resolved (.failed false)) ∧
      dial.stage ≠ .fresh ∧ dial.stage ≠ .ended ∧
      resumeDial ask d s = dialFailed ask d reason s) ∨
    (dial.word = none ∧
      ((dial.stage = .waiting ∧ dial.shield = .waiting ∧
        resumeDial ask d s = settle d (!dial.isCancelled) s) ∨
      (dial.stage = .waiting ∧ dial.shield = .resolved (.failed true) ∧
        resumeDial ask d s = endDial d s) ∨
      (((dial.stage = .waiting ∧ (dial.shield = .cancelled ∨ dial.shield = .resolved .cancelled)) ∨
          ∃ b, dial.stage = .settling b) ∧
        resumeDial ask d s = (endDial d >>= fun _ => abandonAttempt d) s) ∨
      ((dial.stage = .fresh ∨ dial.stage = .ended) ∧ resumeDial ask d s = .ok () s))) := by
  unfold resumeDial
  simp only [get_bind_apply, h]
  obtain ⟨host, port, stage, wake, cancelAsked, shield, attempt⟩ := dial
  cases stage with
  | fresh => exact .inr (.inr ⟨rfl, .inr (.inr (.inr ⟨.inl rfl, rfl⟩))⟩)
  | ended => exact .inr (.inr ⟨rfl, .inr (.inr (.inr ⟨.inr rfl, rfl⟩))⟩)
  | settling timedOut =>
    simp only [Dial.word, Dial.isCancelled]
    split
    · exact .inr (.inl ⟨_, if_pos ‹_›, nofun, nofun, nofun, rfl⟩)
    · exact .inr (.inr ⟨if_neg ‹_›, .inr (.inr (.inl ⟨.inr ⟨timedOut, rfl⟩, rfl⟩))⟩)
  | waiting =>
    cases shield with
    | waiting => exact .inr (.inr ⟨rfl, .inl ⟨rfl, rfl, rfl⟩⟩)
    | cancelled => exact .inr (.inr ⟨rfl, .inr (.inr (.inl ⟨.inl ⟨rfl, .inl rfl⟩, rfl⟩))⟩)
    | resolved result =>
      rcases result with i | (_ | _) | _
      · exact .inl ⟨i, rfl, rfl, rfl, rfl⟩
      · exact .inr (.inl ⟨_, rfl, fun _ => rfl, nofun, nofun, rfl⟩)
      · exact .inr (.inr ⟨rfl, .inr (.inl ⟨rfl, rfl, rfl⟩)⟩)
      · exact .inr (.inr ⟨rfl, .inr (.inr (.inl ⟨.inl ⟨rfl, .inr rfl⟩, rfl⟩))⟩)

end Session
end DiagnosticWatch
