/-
# The latest attempt

A link records the dial under way. A dial that is not recorded is superseded:
the link was disconnected since, or it dials anew, and it stays so. The link
hears a superseded dial nevertheless if that has the word when it goes on, and
takes what it has opened while it is connecting, whoever it waits for.

So the latest attempt wins along a run exactly if no turn of it lets the link
hear a superseded dial.

Key definitions: `Session.Superseded`, `Move.Supersedes`, `Session.Hears`,
`Session.LatestWins`.
Key theorems: `Session.superseded_of_moves`, `Session.unmoved_iff_not_hears`,
`Session.latest_wins_iff`.
-/
import DiagnosticWatch.Proofs.Session.ClosedOnce

namespace DiagnosticWatch

/-- The move is an errand of the dial or its attempt, or one of their timers. -/
def Move.IsOf (d : Nat) (s : Session) : Move → Prop
  | .turn => ∃ errand ready, s.loop.ready = Errand.job d errand :: ready
  | .alarm timer => timer.alarm = .dialTimeout d ∨ timer.alarm = .attempt d
  | _ => False

/-- By the move the link is asked to disconnect, or to connect where the loop runs, and the
request is taken up. -/
inductive Move.Supersedes : Move → Session → Session → Prop
  | disconnect {depth : Nat} {notify : Bool} {s t : Session}
      (h : (Session.perform (depth + 1) (.disconnect notify)).Ends s t) :
      Supersedes (.ask (.disconnect notify)) s t
  | connect {depth : Nat} {host : String} {port : Number} {s t : Session}
      (running : s.loop.running = true)
      (h : (Session.perform (depth + 1) (.connect host port)).Ends s t) :
      Supersedes (.ask (.connect host port)) s t

namespace Session

open Act

variable {A : Request → Prop} {s t u : Session} {d : Nat} {dial : Dial} {link : Settings}
variable {ask : Request → Act Session Answer}

/-- The dial is not the one under way. -/
structure Superseded (s : Session) (d : Nat) : Prop where
  made : d < s.network.dials.size
  other : s.link.dial ≠ some d

/-- The dial goes on in the next turn and has the word, and the link is connecting or has
a dial under way. -/
def Hears (s : Session) (d : Nat) : Prop :=
  ∃ dial ready, s.loop.ready = .resumeDial d :: ready ∧ s.dial? d = some dial ∧
    dial.word ≠ none ∧ (s.phase = .connecting ∨ s.link.dial ≠ none)

/-- From `s` to `t` the link did not change its phase, not even for a while, nor its
record of the dial under way. -/
structure Unmoved (s t : Session) : Prop where
  phase : t.phase = s.phase
  moves : t.moves = s.moves
  dial : t.link.dial = s.link.dial

/-- The connection of the link was opened by the attempt of the dial made last. -/
def HoldsLatest (s : Session) : Prop :=
  ∃ d i, d + 1 = s.network.dials.size ∧ s.Opened d i ∧
    s.link.writesTo = some i ∧ s.link.readsFrom = some i

/-- The latest attempt wins: a connected link holds what it has opened, and nothing that
becomes of a superseded dial moves the link. -/
structure LatestWins (s : Session) (move : Move) (t : Session) : Prop where
  held : t.phase = .connected → t.HoldsLatest
  silent : ∀ d, move.IsOf d s → s.Superseded d → Unmoved s t

/-! ### Superseded dials -/

theorem Superseded.congr (h : s.Superseded d) (size : t.network.dials.size = s.network.dials.size)
    (dial : t.link.dial = s.link.dial ∨ t.link.dial = none) : t.Superseded d where
  made := size ▸ h.made
  other := by
    rcases dial with hd | hd
    · rw [hd]
      exact h.other
    · rw [hd]
      nofun

theorem superseded_dialling (host : String) (port : Number) (hd : d < s.network.dials.size) :
    (s.dialling host port).Superseded d := by
  refine ⟨?_, fun he => ?_⟩
  · simp only [dialling, Array.size_push]
    omega
  · cases he
    omega

/-- A dial is recorded only when it is made. -/
theorem Superseded.change (h : s.Superseded d) (hc : Change A s t) : t.Superseded d := by
  cases hc with
  | plain alike => exact h.congr (by rw [alike.dials]) (.inl alike.dial)
  | listen | put | mark | report | signal => exact h.congr rfl (.inl rfl)

theorem Superseded.part (h : s.Superseded d) (hp : Part s t) : t.Superseded d := by
  cases hp with
  | alike alike => exact h.congr (by rw [alike.dials]) (.inl alike.dial)
  | word | setOut => exact h.congr rfl (.inl rfl)
  | cancel recorded hc => exact h.congr (cancelDial_keeps hc).2.2 (.inr rfl)
  | dial host port => exact superseded_dialling host port h.made

theorem Superseded.work (h : s.Superseded d) (hw : Work A s t) : t.Superseded d :=
  hw.keeps (P := (Superseded · d)) (fun hc h => h.change hc) (fun hp h => h.part hp)
    (fun {s} h => h.congr (by rw [(left_keeps_dials s).1]) (.inl (left_keeps_dials s).2))
    (fun {s} h => h.congr (by rw [(forgotten_keeps s).1]) (.inl (forgotten_keeps s).2)) h

theorem Superseded.tidy (h : s.Superseded d) (ht : Tidy A s t) : t.Superseded d :=
  h.congr ht.dials (.inl (by rw [ht.link]))

theorem Superseded.turns (h : s.Superseded d) (hsc : s.Scripted A) (ht : Turns A s t) :
    t.Superseded d := by
  cases ht with
  | idle => exact h
  | absent => exact h.congr rfl (.inl rfl)
  | errand hr present other ends => exact h.tidy (tidy_of_errand hsc hr present other ends)
  | works hr other work =>
    refine Superseded.work ?_ work
    exact h.congr rfl (.inl rfl)
  | @resumes d' dial ready _ hr present resumes =>
    have hp := tidy_popped (A := A) hr
    have hs := h.tidy hp
    have hsp := hp.scripted hsc
    have hd' : (s.popped ready).dial? d' = some dial := present
    have hend := hs.tidy (tidy_dialEnded hsp hd')
    have hup := hs.tidy (tidy_dialGivenUp hsp hd')
    cases resumes with
    | late => exact hs
    | settles => exact hs.congr (size_revise ..) (.inl rfl)
    | dies => exact hend
    | givesUp => exact hup
    | refused => exact hend.congr (by simp [closed, Session.dialless]) (.inr rfl)
    | ignored => exact hup.congr rfl (.inr rfl)
    | connects _ _ _ listeners =>
      refine Superseded.work ?_ listeners
      exact hend.congr rfl (.inr rfl)
    | disconnects _ _ _ listeners =>
      refine Superseded.work ?_ listeners
      exact hup.congr rfl (.inr rfl)

/-- A superseded dial stays superseded. -/
theorem Superseded.moves (h : s.Superseded d) (hsc : s.Fit A) {move : Move}
    (hm : Moves A move s t) : t.Superseded d := by
  rcases moves_cases hsc hm with hw | ⟨-, ht⟩ | ⟨timer, -, hg⟩
  · exact h.work hw
  · exact h.turns hsc.scripted ht
  · exact h.tidy (tidy_of_alarm hsc.scripted hg)

/-- Whoever disconnects supersedes all dials. -/
theorem superseded_of_disconnect (ha : Asks A ask) (hs : s.Fit A) {notify : Bool}
    (h : (disconnect ask notify).Ends s t) (hd : d < s.network.dials.size) : t.Superseded d := by
  obtain ⟨u, hu, hcall, hnone, hsize⟩ := callOff_ok s
  rw [disconnect_eq] at h
  unfold Ends at h
  rw [bind_of_ok hu] at h
  have hsup : u.Superseded d := ⟨hsize ▸ hd, by rw [hnone]; nofun⟩
  exact hsup.work (lands_part ha (hs.tells hcall) (preface_nil A notify u) (.refl u) t h)

theorem superseded_of_setOut (ha : Asks A ask) (hs : s.Fit A) {host : String} {port : Number}
    (hp : s.phase = .disconnected) (h : (setOut ask host port).Ends s t)
    (hd : d < s.network.dials.size) : t.Superseded d := by
  have hm : s.phase.canBecome .connecting = true := by rw [hp]; rfl
  have hc : Part s (s.movedTo .connecting) := .setOut hp
  unfold setOut at h
  rcases ends_bind_cases h with ⟨a, u, hu, hf⟩ | ⟨e, he, hu⟩
  · unfold Ends at hf
    rw [moveTo_apply hm] at hu
    have hw : Work A (s.movedTo .connecting) u :=
      leads_tellState ha s.phase .connecting (s.movedTo .connecting) u (ends_of_ok hu) (hs.part hc)
    have hle : (s.movedTo .connecting).network.dials.size ≤ u.network.dials.size :=
      dials_le_of_work hw
    have hlt : d < u.network.dials.size := Nat.lt_of_lt_of_le hd hle
    let v : Session := { u with
      trace := u.trace.record (.log .debug s!"Connecting to debug server at {host}:{port.text}") }
    have hdial : (startDial host port >>= fun d => onLink fun l => { l with dial := some d }) v =
        .ok () (v.dialling host port) := rfl
    have hlog : log .debug s!"Connecting to debug server at {host}:{port.text}" u = .ok () v :=
      tell_apply _ u
    rw [bind_of_ok hlog] at hf
    rw [(ends_ok_iff hdial).mp hf]
    exact superseded_dialling host port hlt
  · rw [moveTo_apply hm] at hu
    rw [announce_error _ _ hu] at he
    cases he

/-- Whoever connects supersedes all dials there were. -/
theorem superseded_of_connect (ha : Asks A ask) (hs : s.Fit A) {host : String} {port : Number}
    (hr : s.loop.running = true) (h : (connect ask host port).Ends s t)
    (hd : d < s.network.dials.size) : t.Superseded d := by
  unfold Ends at h
  rw [connect_apply ask host port hr] at h
  by_cases hp : s.phase = .disconnected
  · rw [if_pos hp] at h
    exact superseded_of_setOut ha hs hp h hd
  · rw [if_neg hp] at h
    rcases ends_bind_cases h with ⟨a, u, hu, hf⟩ | hu
    · have hu' := ends_of_ok hu
      have hsu := hs.work (works_disconnect ha false s u hu' hs)
      exact (superseded_of_disconnect ha hs hu' hd).work (works_setOut ha host port u t hf hsu)
    · exact superseded_of_disconnect ha hs (.inr hu) hd

/-- A superseded dial stays so, and a request to disconnect or to connect supersedes every dial
that there is. -/
theorem superseded_of_moves (hs : s.Fit A) {move : Move} (hm : Moves A move s t)
    (h : s.Superseded d ∨ d < s.network.dials.size ∧ move.Supersedes s t) : t.Superseded d := by
  rcases h with h | ⟨hd, h⟩
  · exact h.moves hs hm
  cases h with
  | @disconnect depth _ _ _ h =>
    exact superseded_of_disconnect (works_perform depth) hs (ends_of_bind_pure h) hd
  | @connect depth _ _ _ _ running h =>
    exact superseded_of_connect (works_perform depth) hs running (ends_of_bind_pure h) hd

/-! ### What the link hears -/

theorem moves_left (s : Session) : s.left.moves =
    if s.phase ≠ .disconnected then (s.phase, .disconnected) :: s.moves else s.moves := by
  have hphase : s.parted.phase = s.phase := congrArg Lifecycle.phase (parted_life s)
  have hmoves : s.parted.moves = s.moves := by
    unfold parted closedHeld
    split <;> rfl
  unfold Session.left
  split
  · rw [← hphase, ← hmoves]
    rfl
  · exact hmoves

theorem forgotten_moves (s : Session) : s.forgotten.moves = s.moves := by
  unfold Session.forgotten
  split <;> rfl

theorem moves_of_change (h : Change A s t) : t.moves = s.moves := by
  cases h with
  | plain alike => exact alike.moves
  | listen | put | mark | report | signal => rfl

theorem moves_telling {e : Event} (he : e.isWord = true) (s : Session) :
    (s.telling e).moves = s.moves := by
  cases e <;> first | rfl | cases he

theorem moves_of_cancel {d : Nat} (h : cancelDial d s = .ok () t) : t.dialless.moves = s.moves := by
  show t.moves = s.moves
  rw [Session.moves, (cancelDial_keeps h).2.1]
  rfl

/-- What a step on the graph of phases keeps, work keeps, whatever the steps so far and the phase
are. -/
theorem Work.keeps_steps {P : List (Phase × Phase) → Phase → Prop}
    (hP : ∀ {steps p q}, p.canBecome q = true → P steps p → P ((p, q) :: steps) q)
    (hw : Work A s t) (hs : P s.moves s.phase) : P t.moves t.phase := by
  refine hw.keeps (P := fun t => P t.moves t.phase) ?_ ?_ ?_ ?_ hs
  · intro u v hc hu
    rwa [moves_of_change hc, phase_of_change hc]
  · intro u v hp hu
    cases hp with
    | alike alike => rwa [alike.moves, alike.phase]
    | word he =>
      rw [moves_telling he]
      exact hu
    | dial => exact hu
    | @cancel w _ _ hc =>
      have hphase : w.dialless.phase = u.phase := by
        show w.phase = u.phase
        rw [phase, (cancelDial_keeps hc).1]
        rfl
      rwa [moves_of_cancel hc, hphase]
    | setOut down => exact hP (by rw [down]; rfl) hu
  · intro u hu
    rw [phase_left, moves_left]
    split
    · refine hP ?_ hu
      cases hp : u.phase <;> first | rfl | contradiction
    · rename_i hp
      rwa [not_not.mp hp] at hu
  · intro u hu
    rwa [forgotten_moves, phase_forgotten]

/-- Work takes no step between phases back. -/
theorem moves_of_work (hw : Work A s t) : s.moves <:+ t.moves :=
  hw.keeps_steps (P := fun steps _ => s.moves <:+ steps)
    (fun _ h => h.trans (List.suffix_cons _ _)) List.suffix_rfl

/-- So a turn of the loop keeps it. -/
theorem Turns.keeps_steps {P : List (Phase × Phase) → Phase → Prop}
    (hP : ∀ {steps p q}, p.canBecome q = true → P steps p → P ((p, q) :: steps) q)
    (hsc : s.Scripted A) (h : Turns A s t) (hs : P s.moves s.phase) : P t.moves t.phase := by
  cases h with
  | idle | absent => exact hs
  | errand hr present other ends =>
    have ht := tidy_of_errand hsc hr present other ends
    rw [ht.moves, phase, ht.link]
    exact hs
  | resumes hr present resumes =>
    cases resumes with
    | late | settles | dies | givesUp | refused | ignored => exact hs
    | connects _ _ hp listeners =>
      have hc : s.phase.canBecome .connected = true := by
        rw [show s.phase = .connecting from hp]
        rfl
      exact listeners.keeps_steps (P := P) hP (hP hc hs)
    | disconnects _ _ hp listeners =>
      have hc : s.phase.canBecome .disconnected = true := by
        rw [show s.phase = .connecting from hp]
        rfl
      exact listeners.keeps_steps (P := P) hP (hP hc hs)
  | works _ _ work => exact work.keeps_steps (P := P) hP hs

/-- Every turn keeps the steps between phases. -/
theorem moves_of_turns (hs : s.Scripted A) (h : Turns A s t) : s.moves <:+ t.moves :=
  h.keeps_steps (P := fun steps _ => s.moves <:+ steps)
    (fun _ h => h.trans (List.suffix_cons _ _)) hs List.suffix_rfl

theorem moves_ne_of_movedTo {target : Phase} (hw : Work A (u.movedTo target) t)
    (hm : u.moves = s.moves) : t.moves ≠ s.moves := by
  intro he
  have hle := (moves_of_work hw).length_le
  have hcons : (u.movedTo target).moves.length = u.moves.length + 1 := rfl
  rw [he, ← hm] at hle
  omega

theorem Tidy.unmoved (h : Tidy A s t) : Unmoved s t where
  phase := by rw [Session.phase, h.link]; rfl
  moves := h.moves
  dial := by rw [h.link]

theorem hears_iff {ready : List Job} (hr : s.loop.ready = .resumeDial d :: ready)
    (hd : s.dial? d = some dial) :
    s.Hears d ↔ dial.word ≠ none ∧ (s.phase = .connecting ∨ s.link.dial ≠ none) := by
  constructor
  · rintro ⟨dial', ready', -, hd', h⟩
    cases hd.symm.trans hd'
    exact h
  · exact fun h => ⟨dial, ready, hr, hd, h⟩

/-- A dial that goes on moves the link exactly if the link hears it. Without a word it
does not; with one it clears the record, and takes a connecting link to another phase. -/
theorem unmoved_iff_of_resumes {ready : List Job} (hr : s.loop.ready = .resumeDial d :: ready)
    (hd : s.dial? d = some dial) (h : Resumes A d dial (s.popped ready) t) :
    Unmoved s t ↔ ¬ s.Hears d := by
  rw [hears_iff hr hd]
  have silent : dial.word = none → Unmoved s t →
      (Unmoved s t ↔ ¬ (dial.word ≠ none ∧ (s.phase = .connecting ∨ s.link.dial ≠ none))) :=
    fun hw hu => iff_of_true hu fun h => h.1 hw
  have clears : dial.word ≠ none → s.phase ≠ .connecting → t.phase = s.phase → t.moves = s.moves →
      t.link.dial = none →
      (Unmoved s t ↔ ¬ (dial.word ≠ none ∧ (s.phase = .connecting ∨ s.link.dial ≠ none))) := by
    intro hw hp hphase hmoves hnone
    refine ⟨fun hu hh => ?_, fun hh => ⟨hphase, hmoves, ?_⟩⟩
    · rcases hh.2 with hc | hl
      · exact hp hc
      · exact hl (hu.dial ▸ hnone)
    · rw [hnone]
      exact (Decidable.not_not.mp fun hl => hh ⟨hw, .inr hl⟩).symm
  have moves : dial.word ≠ none → s.phase = .connecting → t.moves ≠ s.moves →
      (Unmoved s t ↔ ¬ (dial.word ≠ none ∧ (s.phase = .connecting ∨ s.link.dial ≠ none))) :=
    fun hw hp hm => iff_of_false (fun hu => hm hu.moves) fun h => h ⟨hw, .inl hp⟩
  cases h with
  | late hw =>
    refine silent ?_ ⟨rfl, rfl, rfl⟩
    rcases hw with hw | hw <;> simp [Dial.word, hw]
  | settles stage shield | dies stage shield =>
    exact silent (by simp [Dial.word, stage, shield]) ⟨rfl, rfl, rfl⟩
  | givesUp hw word => exact silent word ⟨rfl, rfl, rfl⟩
  | refused stage shield phase =>
    exact clears (by simp [Dial.word, stage, shield]) phase rfl rfl rfl
  | ignored word text phase => exact clears (by simp [word]) phase rfl rfl rfl
  | connects stage shield phase listeners =>
    exact moves (by simp [Dial.word, stage, shield]) phase (moves_ne_of_movedTo listeners rfl)
  | disconnects word text phase listeners =>
    exact moves (by simp [word]) phase (moves_ne_of_movedTo listeners rfl)

/-- An errand of a dial moves the link exactly if the link hears the dial. -/
theorem unmoved_iff_not_hears (hsc : s.Scripted A) (ht : Turns A s t) {errand : Errand}
    {ready : List Job} (hr : s.loop.ready = errand.job d :: ready) :
    Unmoved s t ↔ ¬ s.Hears d := by
  have hjob : ∀ {d' e ready'}, s.loop.ready = Errand.job d' e :: ready' → d' = d ∧ e = errand := by
    intro d' e ready' h
    have hj : Errand.job d' e = errand.job d := (List.cons.inj (h.symm.trans hr)).1
    have he := congrArg Job.errand? hj
    rw [Job.errand?_job, Job.errand?_job] at he
    cases he
    exact ⟨rfl, rfl⟩
  cases ht with
  | idle h =>
    rw [h] at hr
    cases hr
  | absent h absent =>
    obtain ⟨rfl, -⟩ := hjob h
    refine iff_of_true ⟨rfl, rfl, rfl⟩ ?_
    rintro ⟨dial, _, -, hd, -⟩
    rw [absent] at hd
    cases hd
  | errand h present other ends =>
    obtain ⟨rfl, rfl⟩ := hjob h
    refine iff_of_true (tidy_of_errand hsc h present other ends).unmoved ?_
    rintro ⟨_, _, hr', -⟩
    exact other (hjob (e := .resumeDial) hr').2.symm
  | resumes h present resumes =>
    obtain ⟨rfl, -⟩ := hjob (e := .resumeDial) h
    exact unmoved_iff_of_resumes h present resumes
  | works h other =>
    exact absurd (List.cons.inj (h.symm.trans hr)).1 (other d errand)

/-! ### The latest attempt is held -/

/-- The dial under way is the latest, and a connected link holds what that has opened. -/
structure Latest (s : Session) : Prop where
  record : ∀ d, s.link.dial = some d → d + 1 = s.network.dials.size
  held : s.phase = .connected → s.HoldsLatest

/-- Whatever makes no dial and connects to nothing keeps the latest. -/
theorem Latest.congr (h : s.Latest) (hk : Kept link s t)
    (size : t.network.dials.size = s.network.dials.size)
    (dial : t.link.dial = s.link.dial ∨ t.link.dial = none)
    (held : t.phase = .connected → s.phase = .connected ∧ t.link.writesTo = s.link.writesTo ∧
      t.link.readsFrom = s.link.readsFrom) : t.Latest where
  record d hd := by
    rw [size]
    rcases dial with hr | hr
    · exact h.record d (hr ▸ hd)
    · rw [hr] at hd
      cases hd
  held hp := by
    obtain ⟨hp', hw, hr⟩ := held hp
    obtain ⟨d, i, hd, ho, hw', hr'⟩ := h.held hp'
    exact ⟨d, i, size ▸ hd, hk.opened d i ho, hw.trans hw', hr.trans hr'⟩

theorem Latest.change (h : s.Latest) (hs : s.Sound link) (hc : Change A s t) : t.Latest := by
  have hk := hs.change hc
  cases hc with
  | plain alike =>
    exact h.congr hk (by rw [alike.dials]) (.inl alike.dial) fun hp =>
      ⟨alike.phase.symm.trans hp, alike.writesTo, alike.readsFrom⟩
  | listen | put | mark | report | signal =>
    exact h.congr hk rfl (.inl rfl) fun hp => ⟨hp, rfl, rfl⟩

theorem Latest.part (h : s.Latest) (hs : s.Sound link) (hp : Part s t) : t.Latest := by
  have hk := hs.part hp
  cases hp with
  | alike alike =>
    exact h.congr hk (by rw [alike.dials]) (.inl alike.dial) fun hp =>
      ⟨alike.phase.symm.trans hp, alike.writesTo, alike.readsFrom⟩
  | word => exact h.congr hk rfl (.inl rfl) fun hp => ⟨hp, rfl, rfl⟩
  | @cancel u _ _ hc =>
    obtain ⟨hl, -, hsize⟩ := cancelDial_keeps hc
    refine h.congr hk hsize (.inr rfl) fun hp => ?_
    have hp' : u.phase = .connected := hp
    rw [phase, hl] at hp'
    have hw : u.link.writesTo = s.link.writesTo := congrArg Link.writesTo hl
    have hr : u.link.readsFrom = s.link.readsFrom := congrArg Link.readsFrom hl
    exact ⟨hp', hw, hr⟩
  | setOut =>
    refine h.congr hk rfl (.inl rfl) fun hp => ?_
    cases hp
  | dial host port hp =>
    refine ⟨fun d hd => ?_, fun hp' => absurd hp' hp⟩
    cases hd
    simp [dialling]

theorem Latest.left (h : s.Latest) (hs : s.Sound link) : s.left.Latest := by
  refine h.congr hs.left (by rw [(left_keeps_dials s).1]) (.inl (left_keeps_dials s).2) fun hp => ?_
  rw [phase_left] at hp
  cases hp

theorem Latest.forgotten (h : s.Latest) (hs : s.Sound link) : s.forgotten.Latest := by
  refine h.congr hs.forgotten (by rw [(forgotten_keeps s).1]) (.inl (forgotten_keeps s).2) ?_
  unfold Session.forgotten
  split <;> exact fun hp => ⟨hp, rfl, rfl⟩

theorem Latest.work (h : s.Latest) (hs : s.Sound link) (hw : Work A s t) : t.Latest :=
  (hw.keeps (P := fun s => s.Sound link ∧ s.Latest)
    (fun hc ⟨hs, h⟩ => ⟨(hs.change hc).sound, h.change hs hc⟩)
    (fun hp ⟨hs, h⟩ => ⟨(hs.part hp).sound, h.part hs hp⟩)
    (fun ⟨hs, h⟩ => ⟨hs.left.sound, h.left hs⟩)
    (fun ⟨hs, h⟩ => ⟨hs.forgotten.sound, h.forgotten hs⟩) ⟨hs, h⟩).2

theorem Latest.tidy (h : s.Latest) (hk : Kept link s t) (ht : Tidy A s t) : t.Latest := by
  refine h.congr hk ht.dials (.inl (by rw [ht.link])) fun hp => ?_
  rw [phase, ht.link] at hp
  exact ⟨hp, by rw [ht.link], by rw [ht.link]⟩

/-- A dial that goes on keeps the latest, unless it connects while another is under way. -/
theorem Latest.resumes (h : s.Latest) (hs : s.Sound link) {ready : List Job}
    (hr : s.loop.ready = .resumeDial d :: ready) (hd : s.dial? d = some dial)
    (hres : Resumes A d dial (s.popped ready) t) (unheard : s.Superseded d → ¬ s.Hears d) :
    t.Latest := by
  have hk := hs.resumes hr hd hres
  have hended : ((s.popped ready).dialEnded d dial).network.dials.size = s.network.dials.size :=
    size_revise ..
  have hgivenUp : ((s.popped ready).dialGivenUp d dial).network.dials.size = s.network.dials.size :=
    size_revise ..
  cases hres with
  | late => exact h.congr hk rfl (.inl rfl) fun hp => ⟨hp, rfl, rfl⟩
  | settles => exact h.congr hk (size_revise ..) (.inl rfl) fun hp => ⟨hp, rfl, rfl⟩
  | dies => exact h.congr hk hended (.inl rfl) fun hp => ⟨hp, rfl, rfl⟩
  | givesUp => exact h.congr hk hgivenUp (.inl rfl) fun hp => ⟨hp, rfl, rfl⟩
  | refused => exact h.congr hk hended (.inr rfl) fun hp => ⟨hp, rfl, rfl⟩
  | ignored => exact h.congr hk hgivenUp (.inr rfl) fun hp => ⟨hp, rfl, rfl⟩
  | disconnects word text phase listeners =>
    have hkd := hs.disconnected hr hd word text phase
    exact (h.congr hkd hgivenUp (.inr rfl) nofun).work hkd.sound listeners
  | @connects i _ stage shield phase listeners =>
    have hkc := hs.connected hr hd stage shield phase
    have hmade : d < s.network.dials.size := (Array.getElem?_eq_some_iff.mp hd).1
    have hears : s.Hears d :=
      (hears_iff hr hd).mpr ⟨by simp [Dial.word, stage, shield], .inl phase⟩
    have hrecord : s.link.dial = some d :=
      Decidable.not_not.mp fun hne => unheard ⟨hmade, hne⟩ hears
    have hopened : s.Opened d i := ⟨dial, hd, (hs.dials d dial hd).shield.resolved _ shield⟩
    have hlatest : d + 1 = ((s.popped ready).dialEnded d dial).network.dials.size :=
      (h.record d hrecord).trans hended.symm
    refine Latest.work ⟨fun _ hd' => ?_, fun _ => ?_⟩ hkc.sound listeners
    · cases hd'
    · exact ⟨d, i, hlatest, hkc.opened d i hopened, rfl, rfl⟩

theorem Latest.turns (h : s.Latest) (hs : s.Sound link) (hsc : s.Scripted A) (ht : Turns A s t)
    (unheard : ∀ d, s.Superseded d → ¬ s.Hears d) : t.Latest := by
  have hk := hs.turns ht
  cases ht with
  | idle => exact h
  | absent hr => exact h.tidy hk (tidy_popped (A := A) hr)
  | errand hr present other ends => exact h.tidy hk (tidy_of_errand hsc hr present other ends)
  | resumes hr present resumes => exact h.resumes hs hr present resumes (unheard _)
  | works hr other work =>
    have hkp := hs.popped hr other
    exact (h.tidy hkp (tidy_popped (A := A) hr)).work hkp.sound work

theorem Latest.moves (h : s.Latest) (hs : s.Sound link) (hsc : s.Fit A) {move : Move}
    (hm : Moves A move s t) (unheard : move = .turn → ∀ d, s.Superseded d → ¬ s.Hears d) :
    t.Latest := by
  have hk := hs.moves hsc hm
  rcases moves_cases hsc hm with hw | ⟨hturn, ht⟩ | ⟨timer, -, hg⟩
  · exact h.work hs hw
  · exact h.turns hs hsc.scripted ht (unheard hturn)
  · exact h.tidy hk (tidy_of_alarm hsc.scripted hg)

/-! ### The latest attempt wins -/

/-- What becomes of a dial moves the link only in a turn, and only if the link hears it. -/
theorem unmoved_of_isOf (hsc : s.Fit A) {move : Move} (hm : Moves A move s t)
    (hof : move.IsOf d s) (unheard : move = .turn → ¬ s.Hears d) : Unmoved s t := by
  cases move with
  | turn =>
    obtain ⟨errand, ready, hr⟩ := hof
    obtain ⟨depth, ht⟩ := hm
    have ht' := turns_of_turn (works_perform depth) hsc ht
    exact (unmoved_iff_not_hears hsc.scripted ht' hr).mpr (unheard rfl)
  | alarm timer => exact (tidy_of_alarm hsc.scripted hm.2).unmoved
  | _ => exact hof.elim

theorem unheard_of_silent (hsc : s.Fit A) (hm : Moves A .turn s t)
    (silent : Move.turn.IsOf d s → Unmoved s t) : ¬ s.Hears d := by
  intro hears
  obtain ⟨dial, ready, hr, -⟩ := id hears
  obtain ⟨depth, ht⟩ := hm
  have ht' := turns_of_turn (works_perform depth) hsc ht
  have hr' : s.loop.ready = Errand.job d .resumeDial :: ready := hr
  exact (unmoved_iff_not_hears hsc.scripted ht' hr').mp (silent ⟨.resumeDial, ready, hr'⟩) hears

/-- Along every run, the latest attempt wins exactly if the link hears no superseded dial
in any turn: then a connected link always holds what the attempt of the dial made last has
opened, and no outcome of a superseded one changes its phase or its record. Whoever disconnects
or connects supersedes all dials made before, for good. -/
theorem latest_wins_iff (link pacer : Settings) (store : Store) (outcomes : List Outcome)
    (probe : Option (List (Option Json))) (path : List (Move × Session))
    (h : Along (fun s move t => Moves (fun _ => True) move s t)
      (start link pacer store outcomes probe) path) :
    (Along LatestWins (start link pacer store outcomes probe) path ↔
      Along (fun s move _ => move = .turn → ∀ d, s.Superseded d → ¬ s.Hears d)
        (start link pacer store outcomes probe) path) ∧
    Along (fun s move t => ∀ d, s.Superseded d ∨ d < s.network.dials.size ∧ move.Supersedes s t →
      t.Superseded d) (start link pacer store outcomes probe) path := by
  have hstart : (start link pacer store outcomes probe).Fit fun _ => True :=
    fit_start link pacer store probe fun o _ => script_within_of_all (fun _ => trivial) o.race
  refine ⟨⟨?_, ?_⟩, h.derive (Fit fun _ => True) (fun hs hm =>
    ⟨hs.moves hm, fun d => superseded_of_moves hs hm⟩) hstart⟩
  · intro hwins
    refine (h.and hwins).derive (Fit fun _ => True) ?_ hstart
    intro s move t hsc hstep
    refine ⟨hsc.moves hstep.1, ?_⟩
    rintro rfl d hsup
    exact unheard_of_silent hsc hstep.1 fun hof => hstep.2.silent d hof hsup
  · intro hunheard
    refine (h.and hunheard).derive (fun s => s.Fit (fun _ => True) ∧ s.Sound link ∧ s.Latest) ?_
      ⟨hstart, sound_start link pacer store outcomes probe, nofun, nofun⟩
    rintro s move t ⟨hsc, hs, hl⟩ ⟨hm, hun⟩
    have hl' := hl.moves hs hsc hm hun
    refine ⟨⟨hsc.moves hm, (hs.moves hsc hm).sound, hl'⟩, hl'.held, fun d hof hsup => ?_⟩
    exact unmoved_of_isOf hsc hm hof fun hturn => hun hturn d hsup

theorem latest_wins_of_disconnect :
    let s₀ := start {} {} .empty [⟨.opens, .int 0, .none, [], false, []⟩] none
    let s₁ := (perform maxDepth (.connect "127.0.0.1" (.int 27099))).leaves s₀
    let s₂ := (perform maxDepth (.disconnect false)).leaves s₁
    let s₃ := (turn (perform maxDepth)).leaves s₂
    s₂.Superseded 0 ∧ Along LatestWins s₀
      [(.ask (.connect "127.0.0.1" (.int 27099)), s₁), (.ask (.disconnect false), s₂),
        (.turn, s₃)] := by
  intro s₀ s₁ s₂ s₃
  have hwithin : ∀ q, Request.Within (fun _ => True) q := within_of_all fun _ => trivial
  have hpath : Along (fun s move t => Moves (fun _ => True) move s t) s₀
      [(.ask (.connect "127.0.0.1" (.int 27099)), s₁), (.ask (.disconnect false), s₂),
        (.turn, s₃)] :=
    ⟨⟨hwithin _, maxDepth, ends_leaves (by decide +kernel)⟩,
      ⟨hwithin _, maxDepth, ends_leaves (by decide +kernel)⟩,
      ⟨maxDepth, ends_leaves (by decide +kernel)⟩, trivial⟩
  have hfirst : s₂.loop.ready = [.beginDial 0] := by rfl
  refine ⟨⟨by decide +kernel, by decide +kernel⟩,
    (latest_wins_iff {} {} .empty _ none _ hpath).1.mpr ⟨nofun, nofun, fun _ d _ => ?_, trivial⟩⟩
  rintro ⟨dial, ready, hr, -⟩
  rw [hfirst] at hr
  cases hr

end Session
end DiagnosticWatch
