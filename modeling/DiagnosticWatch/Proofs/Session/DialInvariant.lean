/-
# What is due to a dial

A dial, its shield and its attempt learn of each other only through errands.
`Dial.Sound` says which errands are ready for a dial in each of its states, so
that none is lost and none is run twice; and it keeps the account of what the
attempt has opened. Exactly one takes care of an opened connection: the dial
that still waits, an errand that closes it, or it has been taken care of.

What is said of the dial, of its shield and of its attempt depends on few parts
of the state each, so that whatever leaves these parts alone keeps it.

Key definitions: `DialDue`, `ShieldDue`, `AttemptDue`, `Care`, `Dial.Sound`.
Key theorems: `Dial.Sound.moot`, `Dial.Sound.await`, `Dial.Sound.end_attempt`,
`Dial.Sound.resume_gives_up`, `Dial.Sound.not_waits`.
-/
import DiagnosticWatch.Proofs.Session.Dial

namespace DiagnosticWatch

/-- Whether a dial waits for its attempt, and sees to what it opens. -/
def DialStage.waits : DialStage → Bool
  | .waiting | .settling _ => true
  | .fresh | .ended => false

/-- Whether an attempt has been started and has not ended. -/
def AttemptStage.isRunning : AttemptStage → Bool
  | .fresh | .waiting => true
  | .absent | .ended _ => false

/-- What is due when more errands get ready. -/
def Errand.more (es : List Errand) (left : Errand → Nat) (e : Errand) : Nat :=
  left e + es.count e

/-- Who is given up has ended, is woken, or is marked. -/
theorem Attempt.forsaken_cases (attempt : Attempt) :
    (∃ result, attempt.stage = .ended result ∧ attempt.forsaken = attempt ∧
      attempt.forsakenErrands = [.closeOpened]) ∨
    (attempt.stage = .waiting ∧ attempt.wake = .waiting ∧
      attempt.forsaken = { attempt with abandoned := true, wake := .cancelled } ∧
      attempt.forsakenErrands = [.resumeAttempt]) ∨
    ((∀ result, attempt.stage ≠ .ended result) ∧
      ∃ cancelAsked, attempt.forsaken = { attempt with abandoned := true, cancelAsked } ∧
        attempt.forsakenErrands = []) := by
  obtain ⟨stage, wake, asked, shielded, abandoned, outcome⟩ := attempt
  cases stage with
  | ended result => exact .inl ⟨result, rfl, rfl, rfl⟩
  | absent => exact .inr (.inr ⟨nofun, asked, rfl, rfl⟩)
  | fresh => exact .inr (.inr ⟨nofun, true, rfl, rfl⟩)
  | waiting =>
    cases wake with
    | waiting => exact .inr (.inl ⟨rfl, rfl, rfl, rfl⟩)
    | released | cancelled => exact .inr (.inr ⟨nofun, true, rfl, rfl⟩)

/-! ### The dial -/

/-- A dial begins once, and goes on when it has been woken. The numbers say how often the
errands to begin, to be released, to be settled and to go on are ready. -/
structure DialDue (stage : DialStage) (wake : Wake) (shield : Shield) (b r s g : Nat) : Prop where
  begins : b = if stage = .fresh then 1 else 0
  /-- It learns of the shield. -/
  released : stage = .waiting → shield ≠ .waiting → wake = .waiting → 1 ≤ r
  settled : ∀ timedOut, stage = .settling timedOut → wake = .waiting → 1 ≤ s
  resumed : stage.waits = true → wake ≠ .waiting → 1 ≤ g

namespace DialDue

variable {stage : DialStage} {wake : Wake} {shield : Shield} {b r s g : Nat}

theorem begun (h : DialDue stage wake shield (b + 1) r s g) : stage = .fresh ∧ b = 0 := by
  have hb := h.begins
  split at hb
  · exact ⟨‹_›, by omega⟩
  · omega

theorem begins_of_ne (h : DialDue stage wake shield b r s g) (hs : stage ≠ .fresh) : b = 0 := by
  rw [h.begins, if_neg hs]

/-- Nothing is due to a dial that is over. -/
theorem finished (hb : b = 0) : DialDue .ended wake shield b r s g :=
  ⟨hb, nofun, nofun, nofun⟩

/-- A dial that is woken has to go on, and need not be woken again. -/
theorem woken (h : DialDue stage wake shield b r s g) {wake' : Wake} (hw : wake' ≠ .waiting)
    (r' s' : Nat) : DialDue stage wake' shield b r' s' (g + 1) :=
  ⟨h.begins, fun _ _ hw' => absurd hw' hw, fun _ _ hw' => absurd hw' hw, fun _ _ => by omega⟩

end DialDue

/-! ### The shield -/

/-- The shield holds what the attempt has come to, and learns of that. The numbers say how
often the errands to learn of the end and to let go are ready. -/
structure ShieldDue (shield : Shield) (dial : DialStage) (attempt : AttemptStage) (shielded : Bool)
    (e l : Nat) : Prop where
  resolved : ∀ result, shield = .resolved result → attempt = .ended result
  shielded : shield = .waiting → attempt.isRunning = true → shielded = true
  learns : shield = .waiting → ∀ result, attempt = .ended result → dial = .waiting → 1 ≤ e
  letsGo : 1 ≤ l → shield ≠ .waiting

namespace ShieldDue

variable {shield : Shield} {dial : DialStage} {attempt : AttemptStage} {shielded : Bool} {e l : Nat}

/-- Once its dial is over, the shield need not learn anything. -/
theorem finished (h : ShieldDue shield dial attempt shielded e l) :
    ShieldDue shield .ended attempt shielded e l :=
  { h with learns := fun _ _ _ => nofun }

/-- The attempt is started, behind its shield. -/
theorem start (h : ShieldDue shield dial attempt shielded e l) (hs : shield = .waiting)
    (dial' : DialStage) : ShieldDue shield dial' .fresh true e l where
  resolved result hr := by
    rw [hs] at hr
    cases hr
  shielded _ _ := rfl
  learns _ _ := nofun
  letsGo := h.letsGo

/-- An attempt that runs waits for the network. -/
theorem wait (h : ShieldDue shield dial attempt shielded e l) (hr : attempt.isRunning = true) :
    ShieldDue shield dial .waiting shielded e l where
  resolved result hs := by
    rw [h.resolved result hs] at hr
    cases hr
  shielded hs _ := h.shielded hs hr
  learns _ _ := nofun
  letsGo := h.letsGo

/-- A shield that waits is told of the end. -/
theorem ends (h : ShieldDue shield dial attempt shielded e l) (hr : attempt.isRunning = true)
    (result : Result) : ShieldDue shield dial (.ended result) shielded (e + shielded.toNat) l where
  resolved result' hs := by
    rw [h.resolved result' hs] at hr
    cases hr
  shielded _ := nofun
  learns hs _ _ _ := by
    rw [h.shielded hs hr]
    exact Nat.le_add_left 1 e
  letsGo := h.letsGo

/-- The shield learns of the end. -/
theorem learn {result : Result} :
    ShieldDue (if result = .cancelled then .cancelled else .resolved result) dial (.ended result)
      shielded e l := by
  by_cases hc : result = .cancelled
  · rw [if_pos hc]
    exact ⟨nofun, nofun, nofun, fun _ => nofun⟩
  · rw [if_neg hc]
    exact ⟨fun _ hr => by cases hr; rfl, nofun, nofun, fun _ => nofun⟩

/-- The shield is cancelled. -/
theorem cancelled : ShieldDue .cancelled dial attempt shielded e l :=
  ⟨nofun, nofun, nofun, fun _ => nofun⟩

/-- The shield lets go of the attempt, which no waiting one does. -/
theorem let_go (h : ShieldDue shield dial attempt shielded e (l + 1)) :
    ShieldDue shield dial attempt false e l where
  resolved := h.resolved
  shielded hs := absurd hs (h.letsGo (by omega))
  learns hs := absurd hs (h.letsGo (by omega))
  letsGo hl := h.letsGo (by omega)

end ShieldDue

/-! ### The attempt -/

/-- An attempt begins once, and goes on only when it has been woken. The numbers say how
often the errands to begin and to go on are ready, and `rings` whether its timer is armed. -/
structure AttemptDue (stage : AttemptStage) (wake : Wake) (b g : Nat) (rings : Prop) : Prop where
  /-- Only an attempt that waits is woken. -/
  calm : stage = .absent ∨ stage = .fresh → wake = .waiting
  starts : b = if stage = .fresh then 1 else 0
  goesOn : g ≤ if stage = .waiting ∧ wake ≠ .waiting then 1 else 0
  rings : rings → stage = .waiting ∧ wake ≠ .released

namespace AttemptDue

variable {stage : AttemptStage} {wake : Wake} {b g : Nat} {rings : Prop}

theorem fresh (h : AttemptDue stage wake (b + 1) g rings) :
    stage = .fresh ∧ b = 0 ∧ g = 0 ∧ ¬ rings := by
  have hb := h.starts
  split at hb
  · rename_i hs
    have hg := h.goesOn
    rw [if_neg (by rw [hs]; nofun)] at hg
    refine ⟨hs, by omega, by omega, fun hr => ?_⟩
    rw [hs] at h
    exact nomatch (h.rings hr).1
  · omega

theorem waiting (h : AttemptDue stage wake b (g + 1) rings) :
    stage = .waiting ∧ wake ≠ .waiting ∧ b = 0 ∧ g = 0 := by
  have hg := h.goesOn
  split at hg
  · rename_i hs
    have hb := h.starts
    rw [if_neg (by rw [hs.1]; nofun)] at hb
    exact ⟨hs.1, hs.2, hb, by omega⟩
  · omega

/-- The attempt is started. -/
theorem start (h : AttemptDue .absent wake b g rings) : AttemptDue .fresh wake (b + 1) g rings where
  calm _ := h.calm (.inl rfl)
  starts := congrArg (· + 1) h.starts
  goesOn := h.goesOn
  rings hr := nomatch (h.rings hr).1

/-- Nothing is due to an attempt that waits for the network, whether with or without a timer. -/
theorem wait : AttemptDue .waiting .waiting 0 0 rings where
  calm := by rintro (hs | hs) <;> cases hs
  starts := rfl
  goesOn := Nat.zero_le _
  rings _ := ⟨rfl, nofun⟩

/-- Nothing is due to an attempt that has ended. -/
theorem ended {result : Result} : AttemptDue (.ended result) wake 0 0 False where
  calm := by rintro (hs | hs) <;> cases hs
  starts := rfl
  goesOn := Nat.zero_le _
  rings := False.elim

/-- An attempt that waits is woken, and has to go on. -/
theorem woken (h : AttemptDue stage wake b g rings) (hs : stage = .waiting) (hw : wake = .waiting)
    (wake' : Wake) (hw' : wake' ≠ .waiting) {rings' : Prop} (hr : rings' → wake' ≠ .released) :
    AttemptDue stage wake' b (g + 1) rings' where
  calm := by
    rw [hs]
    rintro (hs | hs) <;> cases hs
  starts := h.starts
  goesOn := by
    have hg := h.goesOn
    rw [if_neg fun hn => hn.2 hw] at hg
    rw [if_pos ⟨hs, hw'⟩]
    omega
  rings hr' := ⟨hs, hr hr'⟩

end AttemptDue

/-! ### Who takes care of a connection -/

/-- What an attempt opens is taken care of `fee` times: by the dial that waits for it, by
the errands that close it, of which `c` are ready, or it has been, which `spent` counts. -/
structure Care (fee : Nat) (waits : Bool) (stage : AttemptStage) (abandoned : Bool) (c : Nat)
    (spent : Nat → Nat) : Prop where
  started : waits = true → stage ≠ .absent ∧ abandoned = false
  absent : stage = .absent → abandoned = false ∧ c = 0
  running : stage.isRunning = true → waits.toNat + abandoned.toNat = fee ∧ c = 0
  opened : ∀ i, stage = .ended (.opened i) → waits.toNat + c + spent i = fee

namespace Care

variable {fee c : Nat} {waits abandoned : Bool} {stage : AttemptStage} {spent spent' : Nat → Nat}

theorem congr (h : Care fee waits stage abandoned c spent)
    (hs : ∀ i, stage = .ended (.opened i) → spent' i = spent i) :
    Care fee waits stage abandoned c spent' where
  started := h.started
  absent := h.absent
  running := h.running
  opened i hi := by
    rw [hs i hi]
    exact h.opened i hi

/-- The attempt is started. -/
theorem start (h : Care fee waits .absent abandoned c spent) {waits' : Bool}
    (hf : waits'.toNat = fee) : Care fee waits' .fresh abandoned c spent where
  started _ := ⟨nofun, (h.absent rfl).1⟩
  absent := nofun
  running _ := by
    obtain ⟨ha, hc⟩ := h.absent rfl
    exact ⟨by rw [ha]; exact hf, hc⟩
  opened _ := nofun

/-- An attempt that runs waits for the network. -/
theorem wait (h : Care fee waits stage abandoned c spent) (hr : stage.isRunning = true) :
    Care fee waits .waiting abandoned c spent where
  started hw := ⟨nofun, (h.started hw).2⟩
  absent := nofun
  running _ := h.running hr
  opened _ := nofun

/-- An abandoned attempt that ends has what it opened closed. -/
theorem ends (h : Care fee waits stage abandoned c spent) (hr : stage.isRunning = true)
    {result : Result} (hs : ∀ i, result = .opened i → spent i = 0) :
    Care fee waits (.ended result) abandoned (c + abandoned.toNat) spent where
  started hw := ⟨nofun, (h.started hw).2⟩
  absent := nofun
  running := nofun
  opened i hi := by
    have hsp := hs i (AttemptStage.ended.inj hi)
    obtain ⟨hfee, hc⟩ := h.running hr
    omega

/-- The dial abandons an attempt that runs. -/
theorem abandon (h : Care fee waits stage abandoned c spent) (hw : waits = true)
    (hr : stage.isRunning = true) : Care fee false stage true c spent where
  started := nofun
  absent hs := by
    rw [hs] at hr
    cases hr
  running _ := by
    obtain ⟨hfee, hc⟩ := h.running hr
    rw [hw, (h.started hw).2] at hfee
    exact ⟨hfee, hc⟩
  opened i hi := by
    rw [hi] at hr
    cases hr

/-- The dial has what the attempt has opened closed. -/
theorem close (h : Care fee waits stage abandoned c spent) (hw : waits = true) {result : Result}
    (hs : stage = .ended result) : Care fee false stage abandoned (c + 1) spent where
  started := nofun
  absent ha := by
    rw [hs] at ha
    cases ha
  running hr := by
    rw [hs] at hr
    cases hr
  opened i hi := by
    have ho := h.opened i hi
    rw [hw] at ho
    simp only [Bool.toNat_true, Bool.toNat_false] at ho ⊢
    omega

/-- The dial hands on what the attempt has opened. -/
theorem hand_on (h : Care fee waits stage abandoned c spent) (hw : waits = true) {i : Nat}
    (hs : stage = .ended (.opened i)) (hsp : spent' i = spent i + 1) :
    Care fee false stage abandoned c spent' where
  started := nofun
  absent ha := by
    rw [hs] at ha
    cases ha
  running hr := by
    rw [hs] at hr
    cases hr
  opened j hj := by
    cases hs.symm.trans hj
    have ho := h.opened i hs
    rw [hw] at ho
    simp only [Bool.toNat_true, Bool.toNat_false] at ho ⊢
    omega

/-- What has not opened anything needs no care. -/
theorem dies (h : Care fee waits stage abandoned c spent) {result : Result}
    (hs : stage = .ended result) (ho : ∀ i, result ≠ .opened i) :
    Care fee false stage abandoned c spent where
  started := nofun
  absent := h.absent
  running hr := by
    rw [hs] at hr
    cases hr
  opened i hi := absurd (AttemptStage.ended.inj (hs.symm.trans hi)) (ho i)

/-- What the attempt has opened is closed. -/
theorem closed (h : Care fee waits stage abandoned (c + 1) spent) {i : Nat}
    (hs : stage = .ended (.opened i)) (hsp : spent' i = spent i + 1) :
    Care fee waits stage abandoned c spent' where
  started := h.started
  absent ha := by
    rw [hs] at ha
    cases ha
  running hr := by
    rw [hs] at hr
    cases hr
  opened j hj := by
    cases hs.symm.trans hj
    have ho := h.opened i hs
    omega

end Care

/-! ### What is due to a dial, its shield and its attempt -/

/-- `due` counts the errands that are ready for the dial, `rings` says whether the timer
of its attempt is armed, and `spent` how often each connection has been taken care of.
Every connection that the attempt opens is to be taken care of `fee` times. -/
structure Dial.Sound (fee : Nat) (due : Errand → Nat) (rings : Prop) (spent : Nat → Nat)
    (dial : Dial) : Prop where
  fresh : dial.stage = .fresh →
    dial.attempt.stage = .absent ∧ dial.shield = .waiting ∧ dial.wake = .waiting
  task : DialDue dial.stage dial.wake dial.shield
    (due .beginDial) (due .releaseDial) (due .settleDial) (due .resumeDial)
  shield : ShieldDue dial.shield dial.stage dial.attempt.stage dial.attempt.shielded
    (due .attemptEnded) (due .shieldDone)
  attempt : AttemptDue dial.attempt.stage dial.attempt.wake
    (due .beginAttempt) (due .resumeAttempt) rings
  care : Care fee dial.stage.waits dial.attempt.stage dial.attempt.abandoned (due .closeOpened) spent

/-- The dial is not in the state that the errand is for. -/
def Errand.Moot (dial : Dial) : Errand → Prop
  | .beginDial | .beginAttempt => False
  | .resumeDial => dial.stage.waits = false
  | .resumeAttempt | .shieldDone => True
  | .attemptEnded => dial.shield ≠ .waiting ∨ ∀ result, dial.attempt.stage ≠ .ended result
  | .releaseDial => ¬ (dial.stage = .waiting ∧ dial.wake = .waiting)
  | .settleDial => ¬ ((∃ b, dial.stage = .settling b) ∧ dial.wake = .waiting)
  | .closeOpened => ∀ i, dial.attempt.stage ≠ .ended (.opened i)

namespace Dial.Sound

variable {fee : Nat} {due left : Errand → Nat} {rings rings' : Prop} {spent spent' : Nat → Nat}
  {dial : Dial}

theorem fresh_sound {host : String} {port : Number} (hr : ¬ rings) :
    (Dial.fresh host port).Sound fee (fun e => if e = .beginDial then 1 else 0) rings spent where
  fresh _ := ⟨rfl, rfl, rfl⟩
  task := ⟨rfl, nofun, nofun, nofun⟩
  shield := ⟨nofun, fun _ => nofun, fun _ _ => nofun, nofun⟩
  attempt := ⟨fun _ => rfl, rfl, Nat.zero_le _, fun h => absurd h hr⟩
  care := ⟨nofun, fun _ => ⟨rfl, rfl⟩, nofun, fun _ => nofun⟩

theorem weaken (h : dial.Sound fee due rings spent) (hr : rings' → rings)
    (hs : ∀ i, dial.attempt.stage = .ended (.opened i) → spent' i = spent i) :
    dial.Sound fee due rings' spent' :=
  { h with
    attempt := { h.attempt with rings := fun hr' => h.attempt.rings (hr hr') }
    care := h.care.congr hs }

/-- An errand that finds nothing to do is just gone. -/
theorem moot {errand : Errand} (h : dial.Sound fee (Errand.more [errand] left) rings spent)
    (hm : errand.Moot dial) : dial.Sound fee left rings spent := by
  cases errand with
  | beginDial | beginAttempt => exact hm.elim
  | resumeDial =>
    have hnot : dial.stage.waits ≠ true := by
      rw [show dial.stage.waits = false from hm]
      nofun
    exact { h with task := { h.task with resumed := fun hw => absurd hw hnot } }
  | resumeAttempt =>
    exact { h with attempt := { h.attempt with goesOn := Nat.le_of_succ_le h.attempt.goesOn } }
  | attemptEnded =>
    refine { h with shield := { h.shield with learns := fun hs result ha _ => ?_ } }
    rcases hm with hm | hm
    · exact absurd hs hm
    · exact absurd ha (hm result)
  | shieldDone =>
    exact { h with shield := { h.shield with
      letsGo := fun hl => h.shield.letsGo (Nat.le_succ_of_le hl) } }
  | releaseDial =>
    exact { h with task := { h.task with released := fun hs _ hw => absurd ⟨hs, hw⟩ hm } }
  | settleDial =>
    exact { h with task := { h.task with settled := fun b hs hw => absurd ⟨⟨b, hs⟩, hw⟩ hm } }
  | closeOpened =>
    refine { h with
      care := ⟨h.care.started, fun hs => ?_, fun hr => ?_, fun i hi => absurd hi (hm i)⟩ }
    · exact nomatch (h.care.absent hs).2
    · exact nomatch (h.care.running hr).2

/-! ### The dial begins -/

/-- A dial cancelled before it runs ends. -/
theorem begin_cancelled (h : dial.Sound fee (Errand.more [.beginDial] left) rings spent) :
    Dial.Sound fee left rings spent { dial with stage := .ended } := by
  obtain ⟨hfresh, hb⟩ := h.task.begun
  have hcare := h.care
  rw [hfresh] at hcare
  exact { h with fresh := nofun, task := .finished hb, shield := h.shield.finished, care := hcare }

/-- A dial that runs starts its attempt and waits. -/
theorem begin_waits (h : dial.Sound 1 (Errand.more [.beginDial] left) rings spent) :
    Dial.Sound 1 (Errand.more [.beginAttempt] left) rings spent
      { dial with
        stage := .waiting
        attempt := { dial.attempt with stage := .fresh, shielded := true } } := by
  obtain ⟨hfresh, hb⟩ := h.task.begun
  obtain ⟨habsent, hshield, hwake⟩ := h.fresh hfresh
  have hattempt := h.attempt
  have hcare := h.care
  rw [habsent] at hattempt hcare
  exact {
    fresh := nofun
    task := ⟨hb, fun _ hs => absurd hshield hs, nofun, fun _ hw => absurd hwake hw⟩
    shield := h.shield.start hshield .waiting
    attempt := hattempt.start
    care := hcare.start rfl }

/-- A dial whose time cannot be limited leaves its attempt to itself. -/
theorem begin_dies (h : dial.Sound 0 (Errand.more [.beginDial] left) rings spent) :
    Dial.Sound 0 (Errand.more [.beginAttempt] left) rings spent
      { dial with
        stage := .ended
        attempt := { dial.attempt with stage := .fresh, shielded := true } } := by
  obtain ⟨hfresh, hb⟩ := h.task.begun
  obtain ⟨habsent, hshield, -⟩ := h.fresh hfresh
  have hattempt := h.attempt
  have hcare := h.care
  rw [habsent] at hattempt hcare
  exact {
    fresh := nofun
    task := .finished hb
    shield := h.shield.start hshield .ended
    attempt := hattempt.start
    care := hcare.start rfl }

/-! ### The attempt -/

theorem more_endErrands (attempt : Attempt) (left : Errand → Nat) :
    Errand.more attempt.endErrands left = fun e => left e +
      if e = .attemptEnded then attempt.shielded.toNat
      else if e = .closeOpened then attempt.abandoned.toNat else 0 := by
  funext e
  unfold Errand.more Attempt.endErrands
  cases attempt.shielded <;> cases attempt.abandoned <;> cases e <;> rfl

/-- A running attempt ends, and whoever cares is told. -/
theorem end_attempt (h : dial.Sound fee due rings spent) (hr : dial.attempt.stage.isRunning = true)
    (hl : ∀ e, e ≠ .beginAttempt → e ≠ .resumeAttempt → left e = due e)
    (hb : left .beginAttempt = 0) (hg : left .resumeAttempt = 0) {result : Result}
    (hs : ∀ i, result = .opened i → spent i = 0) :
    Dial.Sound fee (Errand.more dial.attempt.endErrands left) False spent (dial.ending result) := by
  have hattempt : AttemptDue (.ended result) dial.attempt.wake
      (left .beginAttempt) (left .resumeAttempt) False := by
    rw [hb, hg]
    exact .ended
  have htask := h.task
  have hshield := h.shield.ends hr result
  have hcare := h.care.ends hr hs
  rw [← hl .beginDial nofun nofun, ← hl .releaseDial nofun nofun, ← hl .settleDial nofun nofun,
    ← hl .resumeDial nofun nofun] at htask
  rw [← hl .attemptEnded nofun nofun, ← hl .shieldDone nofun nofun] at hshield
  rw [← hl .closeOpened nofun nofun] at hcare
  rw [more_endErrands]
  refine {
    fresh := fun hs => ?_
    task := htask
    shield := hshield
    attempt := hattempt
    care := hcare }
  rw [(h.fresh hs).1] at hr
  cases hr

/-- A running attempt waits for the network, for the first time or again, with or without a
timer. -/
theorem await (h : dial.Sound fee due rings spent) (hr : dial.attempt.stage.isRunning = true)
    (hl : ∀ e, e ≠ .beginAttempt → e ≠ .resumeAttempt → left e = due e)
    (hb : left .beginAttempt = 0) (hg : left .resumeAttempt = 0) (outcome : Outcome)
    (rings' : Prop) : Dial.Sound fee left rings' spent (dial.attempting outcome) := by
  have hattempt : AttemptDue .waiting .waiting
      (left .beginAttempt) (left .resumeAttempt) rings' := by
    rw [hb, hg]
    exact .wait
  have htask := h.task
  have hshield := h.shield.wait hr
  have hcare := h.care.wait hr
  rw [← hl .beginDial nofun nofun, ← hl .releaseDial nofun nofun, ← hl .settleDial nofun nofun,
    ← hl .resumeDial nofun nofun] at htask
  rw [← hl .attemptEnded nofun nofun, ← hl .shieldDone nofun nofun] at hshield
  rw [← hl .closeOpened nofun nofun] at hcare
  refine {
    fresh := fun hs => ?_
    task := htask
    shield := hshield
    attempt := hattempt
    care := hcare }
  rw [(h.fresh hs).1] at hr
  cases hr

/-- The timer of the attempt goes off. -/
theorem wake_attempt (h : dial.Sound fee due rings spent) (hr : rings)
    (hw : dial.attempt.wake = .waiting) :
    Dial.Sound fee (Errand.more [.resumeAttempt] due) False spent
      { dial with attempt := { dial.attempt with wake := .released } } := by
  have hs := (h.attempt.rings hr).1
  exact { h with attempt := h.attempt.woken hs hw .released nofun False.elim }

/-! ### The shield -/

theorem learn (h : dial.Sound fee (Errand.more [.attemptEnded] left) rings spent)
    {result : Result} (ha : dial.attempt.stage = .ended result) :
    Dial.Sound fee (Errand.more [.shieldDone, .releaseDial] left) rings spent
      { dial with shield := if result = .cancelled then .cancelled else .resolved result } := by
  have hshield : ShieldDue (if result = .cancelled then .cancelled else .resolved result) dial.stage
      dial.attempt.stage dial.attempt.shielded (left .attemptEnded) (left .shieldDone + 1) := by
    rw [ha]
    exact .learn
  have hreleased : 1 ≤ left .releaseDial + 1 := by omega
  refine {
    fresh := fun hf => ?_
    task := { h.task with released := fun _ _ _ => hreleased }
    shield := hshield
    attempt := h.attempt
    care := h.care }
  rw [(h.fresh hf).1] at ha
  cases ha

theorem let_go (h : dial.Sound fee (Errand.more [.shieldDone] left) rings spent) :
    Dial.Sound fee left rings spent
      { dial with attempt := { dial.attempt with shielded := false } } :=
  { h with shield := h.shield.let_go }

/-! ### The dial is woken -/

/-- A dial that is not fresh is woken, by an errand that is for it or by something else. -/
theorem woken (h : dial.Sound fee due rings spent) (hf : dial.stage ≠ .fresh)
    (hl : ∀ e, e ≠ .releaseDial → e ≠ .settleDial → left e = due e) (wake : Wake)
    (hw : wake ≠ .waiting) :
    Dial.Sound fee (Errand.more [.resumeDial] left) rings spent { dial with wake } := by
  have htask := h.task.woken hw (left .releaseDial) (left .settleDial)
  have hshield := h.shield
  have hattempt := h.attempt
  have hcare := h.care
  rw [← hl .beginDial nofun nofun, ← hl .resumeDial nofun nofun] at htask
  rw [← hl .attemptEnded nofun nofun, ← hl .shieldDone nofun nofun] at hshield
  rw [← hl .beginAttempt nofun nofun, ← hl .resumeAttempt nofun nofun] at hattempt
  rw [← hl .closeOpened nofun nofun] at hcare
  exact {
    fresh := fun hs => absurd hs hf
    task := htask
    shield := hshield
    attempt := hattempt
    care := hcare }

theorem cancel_busy (h : dial.Sound fee due rings spent) :
    Dial.Sound fee due rings spent { dial with cancelAsked := true } :=
  { h with }

/-! ### The dial goes on -/

/-- The dial cancels its shield. -/
theorem resume_settles (h : dial.Sound fee (Errand.more [.resumeDial] left) rings spent)
    (hs : dial.stage = .waiting) (b : Bool) :
    Dial.Sound fee (Errand.more [.shieldDone, .settleDial] left) rings spent
      { dial with
        stage := .settling b
        wake := .waiting
        cancelAsked := false
        shield := .cancelled } := by
  have hb : left .beginDial = 0 := h.task.begins_of_ne (by rw [hs]; nofun)
  have hsettled : 1 ≤ left .settleDial + 1 := by omega
  have hcare := h.care
  rw [hs] at hcare
  exact {
    fresh := nofun
    task := ⟨hb, nofun, fun _ _ _ => hsettled, fun _ hw => absurd rfl hw⟩
    shield := .cancelled
    attempt := h.attempt
    care := hcare }

/-- A dial that waits ends, and somebody else takes care of what there is. -/
theorem resume_ends (h : dial.Sound fee (Errand.more [.resumeDial] left) rings spent)
    (hw : dial.stage.waits = true)
    (care : Care fee false dial.attempt.stage dial.attempt.abandoned (left .closeOpened) spent') :
    Dial.Sound fee left rings spent' { dial with stage := .ended } := by
  have hne : dial.stage ≠ .fresh := by
    intro hs
    rw [hs] at hw
    cases hw
  exact {
    fresh := nofun
    task := .finished (h.task.begins_of_ne hne)
    shield := h.shield.finished
    attempt := h.attempt
    care := care }

/-- What the attempt has not opened needs no care. -/
theorem resume_dies (h : dial.Sound fee (Errand.more [.resumeDial] left) rings spent)
    (hs : dial.stage = .waiting) {result : Result} (hr : dial.shield = .resolved result)
    (ho : ∀ i, result ≠ .opened i) :
    Dial.Sound fee left rings spent { dial with stage := .ended } := by
  have hw : dial.stage.waits = true := by rw [hs]; rfl
  exact h.resume_ends hw (h.care.dies (h.shield.resolved result hr) ho)

/-- The dial hands what its attempt has opened to the link. -/
theorem resume_opened (h : dial.Sound fee (Errand.more [.resumeDial] left) rings spent)
    (hs : dial.stage = .waiting) {i : Nat} (hr : dial.shield = .resolved (.opened i))
    (hsp : spent' i = spent i + 1) :
    Dial.Sound fee left rings spent' { dial with stage := .ended } := by
  have hw : dial.stage.waits = true := by rw [hs]; rfl
  exact h.resume_ends hw (h.care.hand_on hw (h.shield.resolved _ hr) hsp)

/-- The dial gives its attempt up, and what that has opened or opens is closed. -/
theorem resume_gives_up (h : dial.Sound fee (Errand.more [.resumeDial] left) rings spent)
    (hw : dial.stage.waits = true) :
    Dial.Sound fee (Errand.more dial.attempt.forsakenErrands left) rings spent
      { dial with stage := .ended, attempt := dial.attempt.forsaken } := by
  have hb : left .beginDial = 0 := by
    refine h.task.begins_of_ne fun hs => ?_
    rw [hs] at hw
    cases hw
  have hshield := h.shield.finished
  rcases dial.attempt.forsaken_cases with
    ⟨result, hs, hf, he⟩ | ⟨hs, hwake, hf, he⟩ | ⟨hne, asked, hf, he⟩ <;>
    rw [hf, he]
  · exact {
      fresh := nofun
      task := .finished hb
      shield := hshield
      attempt := h.attempt
      care := h.care.close hw hs }
  · exact {
      fresh := nofun
      task := .finished hb
      shield := hshield
      attempt := h.attempt.woken hs hwake .cancelled nofun fun _ => nofun
      care := h.care.abandon hw (by rw [hs]; rfl) }
  · have hrunning : dial.attempt.stage.isRunning = true := by
      cases hs : dial.attempt.stage with
      | absent => exact absurd hs (h.care.started hw).1
      | fresh | waiting => rfl
      | ended result => exact absurd hs (hne result)
    exact {
      fresh := nofun
      task := .finished hb
      shield := hshield
      attempt := h.attempt
      care := h.care.abandon hw hrunning }

theorem close_opened (h : dial.Sound fee (Errand.more [.closeOpened] left) rings spent) {i : Nat}
    (ha : dial.attempt.stage = .ended (.opened i)) (hsp : spent' i = spent i + 1) :
    Dial.Sound fee left rings spent' dial :=
  { h with care := h.care.closed ha hsp }

/-! ### When nothing is due -/

/-- A dial does not wait for an attempt that has ended, for it would be told. -/
theorem not_waits (h : dial.Sound fee due rings spent) (hdue : ∀ e, due e = 0) {result : Result}
    (ha : dial.attempt.stage = .ended result) : dial.stage.waits = false := by
  refine Bool.eq_false_iff.mpr fun hw => ?_
  have hwake : dial.wake = .waiting := Decidable.byContradiction fun hn => by
    have hg := h.task.resumed hw hn
    rw [hdue] at hg
    omega
  cases hs : dial.stage with
  | fresh | ended =>
    rw [hs] at hw
    cases hw
  | settling b =>
    have hset := h.task.settled b hs hwake
    rw [hdue] at hset
    omega
  | waiting =>
    by_cases hshield : dial.shield = .waiting
    · have hl := h.shield.learns hshield result ha hs
      rw [hdue] at hl
      omega
    · have hr := h.task.released hs hshield hwake
      rw [hdue] at hr
      omega

end Dial.Sound
end DiagnosticWatch
