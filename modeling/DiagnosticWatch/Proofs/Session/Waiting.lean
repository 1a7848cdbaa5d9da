/-
# A link that connects does not get stuck

Whenever nothing is ready and the link is connecting, a dial waits with its
timer armed, and nobody has cancelled it. When the timer goes off, the link
stops connecting, or has done so before.

There is such a dial because one is made whenever the link sets out, and the
link does not stay connecting when it is cancelled, fails or succeeds. All
this is about networks that fail with nothing but their own errors, and about
a time limit that a timer can be set to. Without such a limit a dial ends as
soon as it begins, and none ever waits. What an attempt comes to that goes on
although it has been cancelled is of no account, since its dial is over.

Key definitions: `Dial.Steady`, `Dial.Hopeful`, `Session.Waits`,
`Session.Departs`, `Session.Abides`.
Key theorems: `Dial.Steady.step`, `Session.live_of_work`,
`Session.advances_of_resumes`, `Session.departs_or_abides_of_run`,
`Session.waits_iff_timed`.
-/
import DiagnosticWatch.Proofs.Session.Course
import DiagnosticWatch.Proofs.Session.Latest

namespace DiagnosticWatch

variable {link : Settings} {a b : Dial × Bool}

/-! ### What holds of a dial in all its course -/

/-- The attempt of a dial that is not over has not been cancelled and does not fail
unexpectedly, and a dial that waits to be woken has its timer armed. Once a dial is over its
attempt may have been told so, go on all the same and come to anything. -/
structure Dial.Steady (link : Settings) (dial : Dial) (ticks : Bool) : Prop where
  tame : dial.stage ≠ .ended → dial.attempt.outcome.Tame
  expected : dial.stage ≠ .ended → dial.attempt.stage ≠ .ended (.failed true)
  wanted : dial.stage ≠ .ended → dial.attempt.wake ≠ .cancelled ∧
    dial.attempt.cancelAsked = false ∧ dial.attempt.stage ≠ .ended .cancelled
  shielded : dial.stage = .fresh ∨ dial.stage = .waiting → dial.shield ≠ .cancelled
  timed : dial.stage.waits = true → link.connectTimeout.toFloat?.isSome = true
  armed : dial.stage = .waiting → dial.wake = .waiting → ticks = true

theorem Dial.steady_fresh (host : String) (port : Number) (ticks : Bool) :
    (Dial.fresh host port).Steady link ticks where
  tame _ := Outcome.tame_refusal
  expected _ := nofun
  wanted _ := ⟨nofun, rfl, nofun⟩
  shielded _ := nofun
  timed := nofun
  armed := nofun

/-- Nothing is asked of a dial that is over. -/
theorem Dial.steady_of_ended {dial : Dial} {ticks : Bool} (h : dial.stage = .ended) :
    dial.Steady link ticks where
  tame := absurd h
  expected := absurd h
  wanted := absurd h
  shielded := by rw [h]; nofun
  timed := by rw [h]; nofun
  armed := by rw [h]; nofun

theorem Dial.Steady.attempt {dial : Dial} {ticks : Bool} (h : dial.Steady link ticks)
    {attempt : Attempt} (hg : dial.attempt.Proceeds attempt) :
    Dial.Steady link { dial with attempt } ticks := by
  cases hg with
  | waits tame =>
    refine { h with
      tame := fun hs => ?_, expected := fun _ => nofun, wanted := fun _ => ⟨nofun, rfl, nofun⟩ }
    -- an attempt that has been cancelled is that of a dial that is over
    obtain ⟨hwake, hasked, -⟩ := h.wanted hs
    rcases tame with ht | hc | hc
    · exact ht
    · exact absurd hc hwake
    · rw [hasked] at hc
      cases hc
  | opens i =>
    exact { h with
      expected := fun _ => nofun
      wanted := fun hs => ⟨(h.wanted hs).1, (h.wanted hs).2.1, nofun⟩ }
  | fails why =>
    refine { h with expected := fun hs he => ?_, wanted := fun hs => ?_ }
    · exact (h.tame hs).not_unexpected why (AttemptStage.ended.inj he)
    · obtain ⟨hwake, hasked, -⟩ := h.wanted hs
      refine ⟨hwake, hasked, ?_⟩
      cases why with
      | cancelled hc =>
        rcases hc with hc | hc
        · exact absurd hc hwake
        · rw [hasked] at hc
          cases hc
      | failed | untimed => nofun
  | freed => exact { h with }
  | woken => exact { h with wanted := fun hs => ⟨nofun, (h.wanted hs).2⟩ }

theorem Dial.Steady.proceeds (h : a.1.Steady link a.2) (hg : Dial.Proceeds link a b) :
    b.1.Steady link b.2 := by
  cases hg with
  | stillborn | dies => exact steady_of_ended rfl
  | begins fresh time =>
    have going : _ ≠ DialStage.ended := fun he => DialStage.noConfusion (fresh.symm.trans he)
    obtain ⟨hwake, hasked, -⟩ := h.wanted going
    exact { h with
      tame := fun _ => h.tame going
      expected := fun _ => nofun
      wanted := fun _ => ⟨hwake, hasked, nofun⟩
      shielded := fun _ => h.shielded (.inl fresh)
      timed := fun _ => time
      armed := fun _ _ => rfl }
  | attempt hg => exact h.attempt hg
  | @learns dial ticks result hr =>
    refine { h with shielded := fun hs => ?_ }
    have hresult : result ≠ .cancelled := by
      rintro rfl
      exact (h.wanted (by rcases hs with hs | hs <;> rw [hs] <;> nofun)).2.2 hr
    show (if result = .cancelled then Shield.cancelled else .resolved result) ≠ _
    rw [if_neg hresult]
    nofun
  | woken => exact { h with armed := fun _ => nofun }
  | rings hw => exact { h with armed := fun hs hwake => absurd hwake (hw hs) }
  | settles stage =>
    have going : _ ≠ DialStage.ended := fun he => DialStage.noConfusion (stage.symm.trans he)
    exact { h with
      tame := fun _ => h.tame going
      expected := fun _ => h.expected going
      wanted := fun _ => h.wanted going
      shielded := nofun
      timed := fun _ => h.timed (by rw [stage]; rfl)
      armed := nofun }

theorem Dial.Steady.step (h : a.1.Steady link a.2) (hs : Dial.Step link a b) :
    b.1.Steady link b.2 := by
  cases hs with
  | proceeds hg => exact h.proceeds hg
  | ends => exact steady_of_ended rfl
  | cancelled => exact { h with armed := fun _ => nofun }
  | asked => exact { h with }

/-- A dial that has begun does not begin again, and its timer is not armed again. -/
theorem Dial.Step.begun (h : Dial.Step link a b) (hb : a.1.stage ≠ .fresh) :
    b.1.stage ≠ .fresh ∧ (a.2 = false → b.2 = false) := by
  cases h with
  | proceeds hg =>
    cases hg with
    | stillborn fresh | begins fresh | dies fresh => exact absurd fresh hb
    | attempt | learns | woken => exact ⟨hb, id⟩
    | rings => exact ⟨hb, fun _ => rfl⟩
    | settles => exact ⟨nofun, id⟩
  | ends => exact ⟨nofun, fun _ => rfl⟩
  | cancelled | asked => exact ⟨hb, id⟩

theorem Dial.begun_of_steps (h : Relation.ReflTransGen (Dial.Step link) a b)
    (hb : a.1.stage ≠ .fresh) : b.1.stage ≠ .fresh ∧ (a.2 = false → b.2 = false) := by
  induction h with
  | refl => exact ⟨hb, id⟩
  | tail _ hstep ih =>
    obtain ⟨hbegun, hticks⟩ := hstep.begun ih.1
    exact ⟨hbegun, fun h => hticks (ih.2 h)⟩

/-- The dial may still tell the link how its attempt came out, and nobody has cancelled it. -/
structure Dial.Hopeful (dial : Dial) : Prop where
  going : dial.stage ≠ .ended
  patient : dial.stage ≠ .settling false
  uncancelled : dial.isCancelled = false

theorem Dial.Hopeful.proceeds (time : link.connectTimeout.toFloat?.isSome = true) (h : a.1.Hopeful)
    (hg : Dial.Proceeds link a b) : b.1.Hopeful := by
  have hc := h.uncancelled
  cases hg with
  | @stillborn dial _ _ asked =>
    rw [(Dial.isCancelled_eq_false.mp hc).2] at asked
    cases asked
  | begins => exact ⟨nofun, nofun, hc⟩
  | dies _ untimed =>
    rw [untimed] at time
    cases time
  | attempt | learns | rings => exact ⟨h.going, h.patient, hc⟩
  | woken =>
    have hasked := (Dial.isCancelled_eq_false.mp hc).2
    exact ⟨h.going, h.patient, Dial.isCancelled_eq_false.mpr ⟨nofun, hasked⟩⟩
  | @settles dial =>
    refine ⟨nofun, ?_, rfl⟩
    show DialStage.settling (!dial.isCancelled) ≠ _
    rw [hc]
    nofun

namespace Session

open Act

variable {A : Request → Prop} {s t u v : Session} {d : Nat} {dial : Dial}

/-- All dials are steady, and the network stays tame. -/
structure Steady (link : Settings) (s : Session) : Prop where
  outcomes : ∀ o ∈ s.network.outcomes, o.Tame
  dials : ∀ d dial, s.dial? d = some dial → dial.Steady link (s.ticks d)

theorem Steady.courses (h : s.Steady link) (hc : Courses (Dial.Step link) s t) : t.Steady link where
  outcomes o ho := h.outcomes o (hc.outcomes.subset ho)
  dials d dial hd := by
    have hpath : ∀ {a b}, Relation.ReflTransGen (Dial.Step link) a b → a.1.Steady link a.2 →
        b.1.Steady link b.2 := by
      intro a b hab ha
      induction hab with
      | refl => exact ha
      | tail _ hstep ih => exact ih.step hstep
    cases hs : s.dial? d with
    | none =>
      obtain ⟨host, port, ticks, hsteps⟩ := hc.made d dial hd hs
      exact hpath hsteps (Dial.steady_fresh host port ticks)
    | some dial' =>
      obtain ⟨dial'', hd', hsteps⟩ := hc.dials d dial' hs
      cases hd.symm.trans hd'
      exact hpath hsteps (h.dials d dial' hs)

theorem Steady.nextOutcome (h : s.Steady link) : s.nextOutcome.Tame := by
  unfold Session.nextOutcome
  cases ho : s.network.outcomes with
  | nil => exact Outcome.tame_refusal
  | cons o os => exact h.outcomes o (by simp [ho])

theorem courses_of_turns (hs : s.Sound link) (hst : s.Steady link) (h : Turns A s t) :
    Courses (Dial.Step link) s t := by
  cases h with
  | idle => exact .refl s
  | absent => exact courses_popped _ s
  | errand hr present other ends =>
    exact (courses_of_errand hs hst.nextOutcome hr present other ends).mono
      fun _ _ => .proceeds
  | @resumes d dial ready _ _ present resumes =>
    have hpopped : (s.popped ready).dial? d = some dial := present
    exact (courses_popped ready s).trans (courses_of_resumes hpopped resumes)
  | @works _ ready _ _ _ work =>
    have hrest : Courses (Dial.Step link) (s.popped ready) t := courses_of_work work
    exact (courses_popped ready s).trans hrest

/-! ### A dial that gives hope -/

/-- The dial may still tell the link how its attempt came out. -/
def Hopes (s : Session) (d : Nat) : Prop :=
  ∃ dial, s.dial? d = some dial ∧ dial.Hopeful

theorem Hopes.congr (h : s.Hopes d) (dials : t.network.dials = s.network.dials) : t.Hopes d := by
  obtain ⟨dial, hd, hope⟩ := h
  exact ⟨dial, by rw [dial?, dials]; exact hd, hope⟩

theorem Hopes.courses (time : link.connectTimeout.toFloat?.isSome = true) (h : s.Hopes d)
    (hc : Courses (Dial.Proceeds link) s t) : t.Hopes d := by
  obtain ⟨dial, hd, hope⟩ := h
  obtain ⟨dial', hd', hpath⟩ := hc.dials d dial hd
  have hkeeps : ∀ {b}, Relation.ReflTransGen (Dial.Proceeds link) (dial, s.ticks d) b →
      b.1.Hopeful := by
    intro b hb
    induction hb with
    | refl => exact hope
    | tail _ hg ih => exact ih.proceeds time hg
  exact ⟨dial', hd', hkeeps hpath⟩

/-- While the link connects, there is hope. -/
def Live (s : Session) : Prop :=
  s.phase = .connecting → ∃ d, s.Hopes d

theorem Live.congr (h : s.Live) (phase : t.phase = s.phase)
    (dials : t.network.dials = s.network.dials) : t.Live := by
  intro hp
  obtain ⟨d, hope⟩ := h (phase.symm.trans hp)
  exact ⟨d, hope.congr dials⟩

/-- The induction is on the work. A link that drops its connection stops connecting, and
one that sets out makes a dial, whatever the listeners did before. -/
theorem live_of_work (hs : s.Fit A) (h : Work A s t) (live : s.Live) : t.Live := by
  induction h with
  | refl => exact live
  | change first _ ih =>
    exact ih (hs.change first) (live.congr (phase_of_change first) (dials_of_change first))
  | speak held _ tells _ ih =>
    refine ih (hs.tells tells) fun hp => ?_
    have hconnected := (hs.tells tells).held.connected_iff.mpr (by
      rw [writesTo_of_tells tells, held]
      nofun)
    rw [hp] at hconnected
    cases hconnected
  | @drop _ t u _ _ _ tells listeners _ ih ih' =>
    have hfit := (hs.tells tells).left
    have hleft : t.left.Live := fun hp => by
      rw [phase_left] at hp
      cases hp
    exact ih' (hfit.work listeners).forgotten
      ((ih hfit hleft).congr (phase_forgotten u) (forgotten_keeps u).1)
  | @connect s t u host port down listeners apart _ _ ih' =>
    refine ih' (((hs.part (.setOut down)).work listeners).part (.dial host port apart)) fun _ => ?_
    exact ⟨t.network.dials.size, .fresh host port, by rw [dial?_dialling, if_pos rfl],
      ⟨nofun, nofun, rfl⟩⟩

/-! ### Departing from a phase -/

/-- Since `s` the link has taken a step from the phase that it was in. -/
def Departs (s t : Session) : Prop :=
  ∃ phase, (s.phase, phase) :: s.moves <:+ t.moves

/-- The link has stayed in its phase, and there is still hope of the dial. -/
structure Abides (d : Nat) (s t : Session) : Prop where
  phase : t.phase = s.phase
  moves : t.moves = s.moves
  hopes : t.Hopes d

theorem Abides.departs (h : Abides d s t) (hu : t.Departs u) : s.Departs u := by
  unfold Departs at hu ⊢
  rwa [h.phase, h.moves] at hu

theorem Abides.trans (h : Abides d s t) (h' : Abides d t u) : Abides d s u :=
  ⟨h'.phase.trans h.phase, h'.moves.trans h.moves, h'.hopes⟩

theorem Departs.later (h : s.Departs t) (hm : t.moves <:+ u.moves) : s.Departs u := by
  obtain ⟨phase, h⟩ := h
  exact ⟨phase, h.trans hm⟩

/-- Words and the cancelling of a dial do not take the link to another phase. -/
theorem phase_of_tells {words : List Event} (h : Tells s words t) :
    t.phase = s.phase ∧ t.moves = s.moves := by
  induction h with
  | refl => exact ⟨rfl, rfl⟩
  | alike alike _ ih => exact ⟨ih.1.trans alike.phase, ih.2.trans alike.moves⟩
  | word he _ ih => exact ⟨ih.1, ih.2.trans (moves_telling he _)⟩
  | @cancel s t _ _ _ _ hc _ ih =>
    have hphase : t.dialless.phase = s.phase := by
      show t.link.life.phase = s.link.life.phase
      rw [(cancelDial_keeps hc).1]
    exact ⟨ih.1.trans hphase, ih.2.trans (moves_of_cancel hc)⟩

/-- Work that takes a link out of connecting drops what there is of a connection. -/
theorem departs_or_abides_of_work (hs : s.Fit A) (hp : s.phase = .connecting) (hope : s.Hopes d)
    (h : Work A s t) : s.Departs t ∨ Abides d s t := by
  have hnone : s.link.writesTo = none := (hs.held.1 (by rw [hp]; nofun)).1
  induction h with
  | refl => exact .inr ⟨rfl, rfl, hope⟩
  | @change s u t first _ ih =>
    have habides : Abides d s u :=
      ⟨phase_of_change first, moves_of_change first, hope.congr (dials_of_change first)⟩
    have hu := hs.change first
    have hpu := habides.phase.trans hp
    exact (ih hu hpu habides.hopes (hu.held.1 (by rw [hpu]; nofun)).1).imp habides.departs
      habides.trans
  | speak held =>
    rw [hnone] at held
    cases held
  | @drop s t u v words last tells listeners rest =>
    obtain ⟨hphase, hmoves⟩ := phase_of_tells tells
    have hleft : s.Departs t.left := by
      refine ⟨.disconnected, ?_⟩
      have hleft := moves_left t
      rw [if_pos (by rw [hphase, hp]; nofun)] at hleft
      rw [hphase, hmoves] at hleft
      exact hleft ▸ List.suffix_rfl
    have hrest := moves_of_work rest
    rw [forgotten_moves] at hrest
    exact .inl (hleft.later ((moves_of_work listeners).trans hrest))
  | connect _ _ down =>
    rw [hp] at down
    cases down

/-- From `s`, where it connects, the link has gone to another phase, or there is still hope
of the dial. -/
def Advances (d : Nat) (s t : Session) : Prop :=
  (t.phase ≠ .connecting ∧ t.moves = (.connecting, t.phase) :: s.moves) ∨ Abides d s t

theorem Advances.live (h : Advances d s t) (hs : t.Fit A) (hw : Work A t u) : u.Live := by
  refine live_of_work hs hw fun hp => ?_
  rcases h with ⟨hn, -⟩ | h
  · exact absurd hp hn
  · exact ⟨d, h.hopes⟩

theorem Advances.departs_or_abides (h : Advances d s t) (hp : s.phase = .connecting) (ht : t.Fit A)
    (hw : Work A t u) : s.Departs u ∨ Abides d s u := by
  rcases h with ⟨-, hm⟩ | h
  · refine .inl ⟨t.phase, ?_⟩
    rw [hp, ← hm]
    exact moves_of_work hw
  · exact (departs_or_abides_of_work ht (h.phase.trans hp) h.hopes hw).imp h.departs h.trans

/-- A dial that goes on while the link connects takes it to another phase, or does not end
the hope that there is of any dial. -/
theorem advances_of_resumes (hs : s.Fit A) (hst : s.Steady link)
    (time : link.connectTimeout.toFloat?.isSome = true) (hp : s.phase = .connecting)
    (hd : s.dial? d = some dial)
    (shield : ∀ result, dial.shield = .resolved result → dial.attempt.stage = .ended result)
    (h : Resumes A d dial s t) {d' : Nat} (hope : s.Hopes d') :
    ∃ v, v.Fit A ∧ Advances d' s v ∧ Work A v t := by
  have hsteady := hst.dials d dial hd
  have hfit := hs.resumes hd h
  -- the dial that is over gave no hope, so that the hope is of another one
  have hother : ∀ {v : Session}, ¬ dial.Hopeful →
      (∀ d'', d'' ≠ d → v.dial? d'' = s.dial? d'') → v.Hopes d' := by
    intro v hno hdials
    obtain ⟨dial', hd', hope'⟩ := hope
    refine ⟨dial', ?_, hope'⟩
    rw [hdials d', hd']
    rintro rfl
    cases hd.symm.trans hd'
    exact hno hope'
  have hrevised : ∀ (new : Dial) (jobs : List Job) (d'' : Nat), d'' ≠ d →
      ((s.disarmed (.dialTimeout d)).revise d new jobs).dial? d'' = s.dial? d'' := by
    intro new jobs d'' hne
    have hd' : (s.disarmed (.dialTimeout d)).dial? d = some dial := hd
    rw [dial?_revise hd', if_neg hne]
    rfl
  cases h with
  | late => exact ⟨_, hfit, .inr ⟨rfl, rfl, hope⟩, .refl _⟩
  | settles stage =>
    have hc : Courses (Dial.Proceeds link) s (s.settling d dial) :=
      courses_revise_self hd (.settles stage) _
    exact ⟨_, hfit, .inr ⟨rfl, rfl, hope.courses time hc⟩, .refl _⟩
  | dies stage hresolved =>
    exact absurd (shield _ hresolved) (hsteady.expected (by rw [stage]; nofun))
  | givesUp hw word =>
    refine ⟨_, hfit, .inr ⟨rfl, rfl, hother (fun hope => ?_) (hrevised _ _)⟩, .refl _⟩
    rcases hw with ⟨stage, hshield | hresolved⟩ | ⟨b, stage⟩
    · exact hsteady.shielded (.inr stage) hshield
    · exact (hsteady.wanted hope.going).2.2 (shield _ hresolved)
    · cases b with
      | false => exact hope.patient stage
      | true =>
        rw [Dial.word_of_settling stage, if_pos ⟨rfl, by rw [hope.uncancelled]; rfl⟩] at word
        cases word
  | refused _ _ phase => exact absurd hp phase
  | ignored _ _ phase => exact absurd hp phase
  | @connects i _ _ _ _ listeners =>
    refine ⟨_, hs.connected hd i, .inl ⟨nofun, ?_⟩, listeners⟩
    rw [← hp]
    rfl
  | disconnects _ text _ listeners =>
    refine ⟨_, hs.disconnected hd hp text, .inl ⟨nofun, ?_⟩, listeners⟩
    rw [← hp]
    rfl

/-! ### Turns, alarms and runs -/

theorem abides_of_tidy (time : link.connectTimeout.toFloat?.isSome = true) (hope : s.Hopes d)
    (ht : Tidy A s t) (hc : Courses (Dial.Proceeds link) s t) : Abides d s t :=
  ⟨by rw [phase, ht.link]; rfl, ht.moves, hope.courses time hc⟩

/-- A turn takes a link that connects to another phase, or does not end the hope that there
is of any dial. -/
theorem advances_of_turns (hs : s.Fit A) (hsound : s.Sound link) (hst : s.Steady link)
    (time : link.connectTimeout.toFloat?.isSome = true) (hp : s.phase = .connecting)
    (h : Turns A s t) (hope : s.Hopes d) : ∃ v, v.Fit A ∧ Advances d s v ∧ Work A v t := by
  have hfit := hs.turns h
  have hpop : ∀ {job ready}, s.loop.ready = job :: ready → (s.popped ready).Fit A := fun hr =>
    (tidy_popped hr).fit hs
  cases h with
  | idle => exact ⟨s, hs, .inr ⟨rfl, rfl, hope⟩, .refl s⟩
  | absent hr => exact ⟨_, hfit, .inr ⟨rfl, rfl, hope⟩, .refl _⟩
  | errand hr present other ends =>
    have ht := tidy_of_errand hs.scripted hr present other ends
    have hc := courses_of_errand hsound hst.nextOutcome hr present other ends
    exact ⟨t, hfit, .inr (abides_of_tidy time hope ht hc), .refl t⟩
  | @resumes d' dial ready _ hr present resumes =>
    have hpst : (s.popped ready).Steady link := hst.courses (courses_popped ready s)
    obtain ⟨v, hv, hadv, hw⟩ := advances_of_resumes (hpop hr) hpst time hp present
      (hsound.dials _ _ present).shield.resolved resumes (hope.congr rfl)
    refine ⟨v, hv, ?_, hw⟩
    rcases hadv with ⟨hn, hm⟩ | ⟨hphase, hmoves, hope⟩
    · exact .inl ⟨hn, hm⟩
    · exact .inr ⟨hphase, hmoves, hope⟩
  | works hr other work => exact ⟨_, hpop hr, .inr ⟨rfl, rfl, hope.congr rfl⟩, work⟩

/-- A turn that finds the link in another phase makes it connect only in work. -/
theorem live_of_turns (hs : s.Fit A) (hsound : s.Sound link) (hst : s.Steady link)
    (time : link.connectTimeout.toFloat?.isSome = true) (h : Turns A s t) (live : s.Live) :
    t.Live := by
  by_cases hp : s.phase = .connecting
  · obtain ⟨d, hope⟩ := live hp
    obtain ⟨v, hv, hadv, hw⟩ := advances_of_turns hs hsound hst time hp h hope
    exact hadv.live hv hw
  · have hvacuous : ∀ {v : Session}, v.phase = s.phase → v.Live := fun hv hc => absurd (hv ▸ hc) hp
    cases h with
    | idle => exact live
    | absent => exact hvacuous rfl
    | errand hr present other ends =>
      refine hvacuous ?_
      rw [phase, (tidy_of_errand hs.scripted hr present other ends).link]
      rfl
    | resumes hr present resumes =>
      cases resumes with
      | late | settles | dies | givesUp | refused | ignored => exact hvacuous rfl
      | connects _ _ phase => exact absurd phase hp
      | disconnects _ _ phase => exact absurd phase hp
    | works hr other work => exact live_of_work ((tidy_popped hr).fit hs) work (hvacuous rfl)

/-- What is kept along with the account and the steadiness of the dials, a run keeps. -/
theorem Run.carries {P : Session → Prop}
    (work : ∀ {s t}, s.Fit A → Work A s t → P s → P t)
    (turns : ∀ {s t}, s.Fit A → s.Sound link → s.Steady link → Turns A s t → P s → P t)
    (alarm : ∀ {s t}, s.Fit A → Tidy A s t → Courses (Dial.Proceeds link) s t → P s → P t)
    (h : Run A s t) (hs : s.Fit A) (hsound : s.Sound link) (hst : s.Steady link) (hp : P s) :
    t.Sound link ∧ t.Steady link ∧ P t := by
  refine (h.keeps (P := fun s => s.Sound link ∧ s.Steady link ∧ P s) ?_ ?_ ?_ hs
    ⟨hsound, hst, hp⟩).2
  · rintro s t hs hw ⟨hsound, hst, hp⟩
    exact ⟨(hsound.work hw).sound, hst.courses (courses_of_work hw), work hs hw hp⟩
  · rintro s t hs ht ⟨hsound, hst, hp⟩
    exact ⟨(hsound.turns ht).sound, hst.courses (courses_of_turns hsound hst ht),
      turns hs hsound hst ht hp⟩
  · rintro s t timer hs hm hg ⟨hsound, hst, hp⟩
    have hc : Courses (Dial.Proceeds link) s t := courses_of_alarm hg
    exact ⟨(hsound.alarm hm hg).sound, hst.courses (hc.mono fun _ _ => .proceeds),
      alarm hs (tidy_of_alarm hs.scripted hg) hc hp⟩

/-- A run takes a link that connects to another phase, or does not end the hope that there
is of any dial. -/
theorem departs_or_abides_of_run (hs : s.Fit A) (hsound : s.Sound link) (hst : s.Steady link)
    (time : link.connectTimeout.toFloat?.isSome = true) (hp : s.phase = .connecting)
    (hope : s.Hopes d) (h : Run A s t) : s.Departs t ∨ Abides d s t := by
  refine (h.carries (P := fun t => s.Departs t ∨ Abides d s t) ?_ ?_ ?_ hs hsound hst
    (.inr ⟨rfl, rfl, hope⟩)).2.2
  · rintro u v hu hw (h | h)
    · exact .inl (h.later (moves_of_work hw))
    · exact (departs_or_abides_of_work hu (h.phase.trans hp) h.hopes hw).imp h.departs h.trans
  · rintro u v hu hsu hstu ht (h | h)
    · exact .inl (h.later (moves_of_turns hu.scripted ht))
    · obtain ⟨w, hw, hadv, hwork⟩ :=
        advances_of_turns hu hsu hstu time (h.phase.trans hp) ht h.hopes
      exact (hadv.departs_or_abides (h.phase.trans hp) hw hwork).imp h.departs h.trans
  · rintro u v hu ht hc (h | h)
    · exact .inl (h.later (ht.moves ▸ List.suffix_rfl))
    · exact .inr (h.trans (abides_of_tidy time h.hopes ht hc))

theorem courses_of_run (hs : s.Fit A) (hsound : s.Sound link) (hst : s.Steady link)
    (h : Run A s t) : Courses (Dial.Step link) s t :=
  (h.carries (P := Courses (Dial.Step link) s) (fun _ hw h => h.trans (courses_of_work hw))
    (fun _ hsu hstu ht h => h.trans (courses_of_turns hsu hstu ht))
    (fun _ _ hc h => h.trans (hc.mono fun _ _ => .proceeds)) hs hsound hst (.refl s)).2.2

/-! ### Whoever waits -/

/-- The dial waits for its attempt with its timer armed, and nobody has cancelled it. -/
def Waits (s : Session) (d : Nat) : Prop :=
  ∃ dial, s.dial? d = some dial ∧ dial.stage = .waiting ∧ dial.wake = .waiting ∧
    dial.cancelAsked = false ∧ s.ticks d = true

theorem Waits.hopes (h : s.Waits d) : s.Hopes d := by
  obtain ⟨dial, hd, stage, wake, asked, -⟩ := h
  exact ⟨dial, hd, by rw [stage]; nofun, by rw [stage]; nofun,
    Dial.isCancelled_eq_false.mpr ⟨by rw [wake]; nofun, asked⟩⟩

/-- The dial has begun. -/
def Begun (s : Session) (d : Nat) : Prop :=
  ∃ dial, s.dial? d = some dial ∧ dial.stage ≠ .fresh

theorem Waits.begun (h : s.Waits d) : s.Begun d := by
  obtain ⟨dial, hd, stage, -⟩ := h
  exact ⟨dial, hd, by rw [stage]; nofun⟩

/-- A dial that gives hope when nothing is ready waits, for any other would have something
ready. -/
theorem waits_of_idle (hs : s.Sound link) (hst : s.Steady link) (hr : s.loop.ready = [])
    (hope : s.Hopes d) : s.Waits d := by
  obtain ⟨dial, hd, hope⟩ := hope
  have hdue : ∀ e, s.errands d e = 0 := fun e => by simp [errands, hr]
  have htask := (hs.dials d dial hd).task
  simp only [hdue] at htask
  have hfresh : dial.stage ≠ .fresh := fun hf => by
    have hb := htask.begins
    rw [if_pos hf] at hb
    cases hb
  have hwaits : dial.stage.waits = true := by
    cases hs : dial.stage with
    | fresh => exact absurd hs hfresh
    | ended => exact absurd hs hope.going
    | waiting | settling => rfl
  have hwake : dial.wake = .waiting := Decidable.byContradiction fun hn =>
    absurd (htask.resumed hwaits hn) (by omega)
  have hstage : dial.stage = .waiting := by
    cases hs : dial.stage with
    | waiting => rfl
    | settling b => exact absurd (htask.settled b hs hwake) (by omega)
    | fresh => exact absurd hs hfresh
    | ended => exact absurd hs hope.going
  exact ⟨dial, hd, hstage, hwake, (Dial.isCancelled_eq_false.mp hope.uncancelled).2,
    (hst.dials d dial hd).armed hstage hwake⟩

/-- The timer of a dial has gone off, and is not armed when that has been seen to. -/
theorem ticks_of_alarm (h : (goOff (.dialTimeout d)).Ends (s.disarmed (.dialTimeout d)) t) :
    t.ticks d = false := by
  have hself : (s.disarmed (.dialTimeout d)).ticks d = false := by simp [ticks_disarmed]
  cases goesOff_of_ends h with
  | unwaited | wakesDial => exact hself

/-- Along the steps of the dials one that has begun does not begin again, and its timer is
not armed again. -/
theorem Courses.begun (hc : Courses (Dial.Step link) s t) (h : s.Begun d) :
    t.Begun d ∧ (s.ticks d = false → t.ticks d = false) := by
  obtain ⟨dial, hd, hb⟩ := h
  obtain ⟨dial', hd', hpath⟩ := hc.dials d dial hd
  obtain ⟨hb', hticks⟩ := Dial.begun_of_steps hpath hb
  exact ⟨⟨dial', hd', hb'⟩, hticks⟩

theorem steady_of_run (hs : s.Fit A) (hsound : s.Sound link) (hst : s.Steady link)
    (h : Run A s t) : t.Sound link ∧ t.Steady link := by
  obtain ⟨hsound', hst', -⟩ := h.carries (P := fun _ => True) (fun _ _ h => h)
    (fun _ _ _ _ h => h) (fun _ _ _ h => h) hs hsound hst trivial
  exact ⟨hsound', hst'⟩

/-- The dial whose timer has gone off waits no more, so that there is no hope of it when
nothing is ready. -/
theorem departs_of_alarm (hs : s.Fit A) (hsound : s.Sound link) (hst : s.Steady link)
    (time : link.connectTimeout.toFloat?.isSome = true) (hp : s.phase = .connecting)
    (hw : s.Waits d) (hbefore : Run A s t) {timer : Timer} (htimer : timer.alarm = .dialTimeout d)
    (halarm : Moves A (.alarm timer) t u) (hafter : Run A u v) (hr : v.loop.ready = []) :
    s.Departs v := by
  have hfitt := hs.run hbefore
  obtain ⟨hsoundt, hstt⟩ := steady_of_run hs hsound hst hbefore
  have hrung : Run A t u := run_of_move (.alarm timer) halarm
  have hfitu := hfitt.run hrung
  obtain ⟨hsoundu, hstu⟩ := steady_of_run hfitt hsoundt hstt hrung
  obtain ⟨hsoundv, hstv⟩ := steady_of_run hfitu hsoundu hstu hafter
  have hall : Run A s v := trans_of (Run A) hbefore (trans_of (Run A) hrung hafter)
  refine (departs_or_abides_of_run hs hsound hst time hp hw.hopes hall).resolve_right
    fun habides => ?_
  obtain ⟨-, -, -, -, -, hticks⟩ := waits_of_idle hsoundv hstv hr habides.hopes
  have hbegunu : u.Begun d := by
    have hbegunt := ((courses_of_run hs hsound hst hbefore).begun hw.begun).1
    exact ((courses_of_run hfitt hsoundt hstt hrung).begun hbegunt).1
  have hoff : u.ticks d = false := by
    have hgoes := halarm.2
    rw [htimer] at hgoes
    exact ticks_of_alarm hgoes
  rw [((courses_of_run hfitu hsoundu hstu hafter).begun hbegunu).2 hoff] at hticks
  cases hticks

theorem steady_start (link pacer : Settings) (store : Store) {outcomes : List Outcome}
    (probe : Option (List (Option Json))) (tame : ∀ o ∈ outcomes, o.Tame) :
    (start link pacer store outcomes probe).Steady link where
  outcomes := tame
  dials d dial hd := by simp [start, dial?] at hd

theorem live_of_run (hs : s.Fit A) (hsound : s.Sound link) (hst : s.Steady link)
    (time : link.connectTimeout.toFloat?.isSome = true) (live : s.Live) (h : Run A s t) :
    t.Live := by
  refine (h.carries (P := Live) (fun hs hw => live_of_work hs hw)
    (fun hs hsound hst ht => live_of_turns hs hsound hst time ht) ?_ hs hsound hst live).2.2
  intro s t _ ht hc live hp
  obtain ⟨d, hope⟩ := live (by rw [phase, ← ht.link]; exact hp)
  exact ⟨d, hope.courses time hc⟩

/-- Whenever nothing is ready and the link is connecting, some dial waits with its timer armed
and nobody has cancelled it, if and only if the time of a dial can be limited. And whenever
the timer of such a dial goes off and nothing is ready afterwards, the link has stopped
connecting. -/
theorem waits_iff_timed (link pacer : Settings) (store : Store) {outcomes : List Outcome}
    (probe : Option (List (Option Json))) (tame : ∀ o ∈ outcomes, o.Tame)
    (h : Run (fun _ => True) (start link pacer store outcomes probe) s)
    (hr : s.loop.ready = []) (hp : s.phase = .connecting) :
    ((∃ d, s.Waits d) ↔ link.connectTimeout.toFloat?.isSome = true) ∧
    ∀ d, s.Waits d → ∀ t timer u v, Run (fun _ => True) s t → timer.alarm = .dialTimeout d →
      Moves (fun _ => True) (.alarm timer) t u → Run (fun _ => True) u v → v.loop.ready = [] →
      s.Departs v := by
  have hfit : (start link pacer store outcomes probe).Fit fun _ => True :=
    fit_start link pacer store probe fun o _ => script_within_of_all (fun _ => trivial) o.race
  have hsound := sound_start link pacer store outcomes probe
  have hsteady := steady_start link pacer store probe tame
  have hs := hfit.run h
  obtain ⟨hsounds, hst⟩ := steady_of_run hfit hsound hsteady h
  have htimed : ∀ d, s.Waits d → link.connectTimeout.toFloat?.isSome = true := by
    rintro d ⟨dial, hd, stage, -⟩
    exact (hst.dials d dial hd).timed (by rw [stage]; rfl)
  refine ⟨⟨fun ⟨d, hd⟩ => htimed d hd, fun time => ?_⟩, ?_⟩
  · obtain ⟨d, hope⟩ := live_of_run hfit hsound hsteady time nofun h hp
    exact ⟨d, waits_of_idle hsounds hst hr hope⟩
  · intro d hw t timer u v hbefore htimer halarm hafter hidle
    exact departs_of_alarm hs hsounds hst (htimed d hw) hp hw hbefore htimer halarm hafter hidle

/-- A link that sets out to a peer that does not answer. -/
theorem waits_of_connect :
    let s := (settleAll (perform maxDepth) 10).leaves
      ((perform maxDepth (.connect "127.0.0.1" (.int 27099))).leaves
        (start {} {} .empty [⟨.hangs, .int 0, .none, [], true, []⟩] none))
    s.phase = .connecting ∧ ∃ d, s.Waits d ∧ ∀ timer t u, timer.alarm = .dialTimeout d →
      Moves (fun _ => True) (.alarm timer) s t → Run (fun _ => True) t u → u.loop.ready = [] →
      s.Departs u := by
  intro s
  have hrun : Run (fun _ => True)
      (start {} {} .empty [⟨.hangs, .int 0, .none, [], true, []⟩] none) s := by
    refine trans_of (Run _) (run_of_move (.ask (.connect "127.0.0.1" (.int 27099)))
      ⟨within_of_all (fun _ => trivial) _, maxDepth, ends_leaves (by decide +kernel)⟩) ?_
    exact leads_settleAll maxDepth 10 _ s (ends_leaves (by decide +kernel))
  have htame : ∀ o ∈ [Outcome.mk .hangs (.int 0) .none [] true []], o.Tame := by
    intro o ho
    cases List.mem_singleton.mp ho
    exact ⟨nofun, absurd rfl⟩
  have hphase : s.phase = .connecting := by decide +kernel
  obtain ⟨hiff, hdeparts⟩ := waits_iff_timed {} {} .empty none htame hrun
    (List.isEmpty_iff.mp (by decide +kernel)) hphase
  obtain ⟨d, hd⟩ := hiff.mpr (by decide +kernel)
  exact ⟨hphase, d, hd, fun timer t u => hdeparts d hd s timer t u .refl⟩

end Session
end DiagnosticWatch
