/-
# A link that is down stays down

When the link has disconnected and nobody connects, it stays disconnected,
whatever becomes of the dials and attempts that are still on their way:
nothing is written, stored or signalled any more, and all that still happens
is that connections are closed which somebody has opened too late.

Nobody has connected as long as no dial was made. While listeners of a drop
run this does not say that nothing is stored; forgetting makes up for that.

Key definitions: `Request.Quiet`, `Session.StaysDown`.
Key theorems: `Session.stays_of_work`, `Session.stays_of_turns`,
`Session.down_of_disconnect`, `Session.stays_of_run`.
-/
import DiagnosticWatch.Proofs.Session.Settled

namespace DiagnosticWatch

/-- The request leaves the store and the change signal to the link. -/
def Request.Quiet : Request → Prop
  | .put .. | .mark | .fire => False
  | _ => True

namespace Session

open Act

variable {A : Request → Prop} {s t u : Session} {d : Nat} {dial : Dial} {link : Settings}
  {words : List Event} {ask : Request → Act Session Answer}

/-- From `s` to `t` the link comes out disconnected. If nothing was stored or marked,
nothing is, and nothing was told but that connections were closed. -/
structure StaysDown (s t : Session) : Prop where
  phase : t.phase = .disconnected
  silent : s.Clean → t.Clean ∧ ∃ closed : List Nat, t.told = closed.map Event.close ++ s.told

theorem StaysDown.of_quiet (phase : t.phase = .disconnected) (clean : s.Clean → t.Clean)
    (told : t.told = s.told) : StaysDown s t :=
  ⟨phase, fun h => ⟨clean h, [], told⟩⟩

theorem StaysDown.refl (h : s.phase = .disconnected) : StaysDown s s :=
  .of_quiet h id rfl

theorem StaysDown.trans (h : StaysDown s t) (h' : StaysDown t u) : StaysDown s u where
  phase := h'.phase
  silent hs := by
    obtain ⟨ht, closed, htold⟩ := h.silent hs
    obtain ⟨hu, closed', hutold⟩ := h'.silent ht
    exact ⟨hu, closed' ++ closed, by rw [hutold, htold, List.map_append, List.append_assoc]⟩

/-- What keeps away from the link leaves it down. -/
theorem stays_of_tidy (hp : s.phase = .disconnected) (h : Tidy A s t) : StaysDown s t where
  phase := by
    rw [phase, h.link]
    exact hp
  silent hs := ⟨hs.tidy h, h.told⟩

/-! ### Work -/

/-- There is nothing to leave, nothing is received, and no change is marked. -/
theorem stays_of_change (hA : ∀ q, A q → q.Quiet) (hs : s.Fit A) (hp : s.phase = .disconnected)
    (h : Change A s t) : StaysDown s t := by
  have hapart : s.phase ≠ .connected := by rw [hp]; nofun
  cases h with
  | plain alike =>
    exact .of_quiet (alike.phase.trans hp) (·.congr alike.phase alike.store alike.dirty) alike.told
  | listen => exact .of_quiet hp (·.congr rfl rfl rfl) rfl
  | put report asked =>
    obtain ⟨path, notes, hq⟩ := asked
    exact (hA _ hq).elim
  | mark asked => exact (hA _ asked).elim
  | report report reading => exact absurd (hs.held.1 hapart).2 reading
  | signal cause =>
    refine ⟨hp, fun hclean => ?_⟩
    rcases cause with hd | hq
    · rw [(hclean hapart).2] at hd
      cases hd
    · exact (hA _ hq).elim

/-- To cancel a dial does not touch the link otherwise. -/
theorem stays_of_cancel (hp : s.phase = .disconnected) (h : cancelDial d s = .ok () t) :
    StaysDown s t.dialless := by
  obtain ⟨hlink, htrace, -⟩ := cancelDial_keeps h
  have hphase : t.dialless.phase = s.phase := by
    show t.link.life.phase = s.link.life.phase
    rw [hlink]
  refine .of_quiet (hphase.trans hp) (·.congr hphase ?_ ?_) ?_
  · show t.link.store = s.link.store
    rw [hlink]
  · show t.link.signal.dirty = s.link.signal.dirty
    rw [hlink]
  · show t.told = s.told
    rw [told, htrace]
    rfl

theorem stays_of_tells (hp : s.phase = .disconnected) (h : Tells s [] t) :
    StaysDown s t ∧ t.network.dials.size = s.network.dials.size := by
  generalize hw : ([] : List Event) = words at h
  induction h with
  | refl => exact ⟨.refl hp, rfl⟩
  | alike alike _ ih =>
    have hstays : StaysDown _ _ := .of_quiet (alike.phase.trans hp)
      (·.congr alike.phase alike.store alike.dirty) alike.told
    obtain ⟨hrest, hsize⟩ := ih hstays.phase hw
    exact ⟨hstays.trans hrest, hsize.trans (congrArg Array.size alike.dials)⟩
  | word => cases hw
  | cancel recorded hc _ ih =>
    have hstays := stays_of_cancel hp hc
    obtain ⟨hrest, hsize⟩ := ih hstays.phase hw
    exact ⟨hstays.trans hrest, hsize.trans (cancelDial_keeps hc).2.2⟩

theorem stays_of_left (hs : s.Fit A) (hp : s.phase = .disconnected) : StaysDown s s.left := by
  have hnone : s.link.writesTo = none := (hs.held.1 (by rw [hp]; nofun)).1
  have hleft : s.left = { s with link := { s.link with writesTo := none, readsFrom := none } } := by
    simp [left, parted, closedHeld, hp, hnone]
  rw [hleft]
  exact .of_quiet hp (·.congr rfl rfl rfl) rfl

theorem stays_of_forgotten (hp : s.phase = .disconnected) : StaysDown s s.forgotten := by
  refine ⟨(phase_forgotten s).trans hp, fun hclean => ⟨clean_forgotten s, [], ?_⟩⟩
  have hempty : s.link.store.isEmpty = true := (hclean (by rw [hp]; nofun)).1
  unfold forgotten
  rw [if_pos hempty]
  rfl

/-- Work in which no dial is made leaves a link down, since who connects makes one. The
induction is on the work; where dials are only added, none of its parts made one. -/
theorem stays_of_work (hA : ∀ q, A q → q.Quiet) (hs : s.Fit A) (hp : s.phase = .disconnected)
    (h : Work A s t) (size : t.network.dials.size = s.network.dials.size) : StaysDown s t := by
  induction h with
  | refl => exact .refl hp
  | change first _ ih =>
    have hstays := stays_of_change hA hs hp first
    refine hstays.trans (ih (hs.change first) hstays.phase ?_)
    rw [size, dials_of_change first]
  | speak held =>
    rw [(hs.held.1 (by rw [hp]; nofun)).1] at held
    cases held
  | @drop s t u v words last tells listeners rest ih ih' =>
    have hnone : s.link.writesTo = none := (hs.held.1 (by rw [hp]; nofun)).1
    have hwords : words = [] := by
      unfold Parting at last
      rwa [hnone] at last
    subst hwords
    obtain ⟨htells, htold⟩ := stays_of_tells hp tells
    have hleft : t.left.network.dials.size = t.network.dials.size := by rw [(left_keeps_dials t).1]
    have hforgot : u.forgotten.network.dials.size = u.network.dials.size := by
      rw [(forgotten_keeps u).1]
    have hle := dials_le_of_work listeners
    have hle' := dials_le_of_work rest
    have hfit := (hs.tells tells).left
    have hlisteners := ih hfit (phase_left t) (by omega)
    have hrest := ih' (hfit.work listeners).forgotten
      ((phase_forgotten u).trans hlisteners.phase) (by omega)
    exact htells.trans ((stays_of_left (hs.tells tells) htells.phase).trans
      (hlisteners.trans ((stays_of_forgotten hlisteners.phase).trans hrest)))
  | @connect s t u host port down listeners apart rest =>
    have hle := dials_le_of_work listeners
    have hle' := dials_le_of_work rest
    have hout : (s.movedTo .connecting).network.dials.size = s.network.dials.size := rfl
    have hpush : (t.dialling host port).network.dials.size = t.network.dials.size + 1 :=
      Array.size_push _
    omega

/-! ### Turns and alarms -/

/-- A dial that goes on finds nobody who waits for it. -/
theorem stays_of_resumes (hs : s.Scripted A) (hp : s.phase = .disconnected)
    (hd : s.dial? d = some dial) (h : Resumes A d dial s t) :
    StaysDown s t ∧ t.network.dials.size = s.network.dials.size ∧ t.pacer = s.pacer := by
  have hended := tidy_dialEnded hs hd
  have hup := tidy_dialGivenUp hs hd
  have hnot : s.phase ≠ .connecting := by rw [hp]; nofun
  cases h with
  | late => exact ⟨.refl hp, rfl, rfl⟩
  | settles => exact ⟨.of_quiet hp (·.congr rfl rfl rfl) rfl, size_revise .., rfl⟩
  | dies => exact ⟨stays_of_tidy hp hended, hended.dials, hended.pacer⟩
  | givesUp => exact ⟨stays_of_tidy hp hup, hup.dials, hup.pacer⟩
  | @refused i =>
    have htold : ((s.dialEnded d dial).dialless.closed i).told =
        [i].map Event.close ++ s.told := rfl
    exact ⟨⟨hp, fun hclean => ⟨hclean.congr rfl rfl rfl, [i], htold⟩⟩, hended.dials, hended.pacer⟩
  | ignored => exact ⟨.of_quiet hp (·.congr rfl rfl rfl) rfl, hup.dials, hup.pacer⟩
  | connects _ _ phase => exact absurd phase hnot
  | disconnects _ _ phase => exact absurd phase hnot

theorem dials_le_of_resumes (hs : s.Scripted A) (hd : s.dial? d = some dial)
    (h : Resumes A d dial s t) : s.network.dials.size ≤ t.network.dials.size := by
  have hended : (s.dialEnded d dial).network.dials.size = s.network.dials.size :=
    (tidy_dialEnded hs hd).dials
  have hup : (s.dialGivenUp d dial).network.dials.size = s.network.dials.size :=
    (tidy_dialGivenUp hs hd).dials
  cases h with
  | late => exact Nat.le_refl _
  | settles => exact Nat.le_of_eq (size_revise ..).symm
  | dies | refused => exact Nat.le_of_eq hended.symm
  | givesUp | ignored => exact Nat.le_of_eq hup.symm
  | connects _ _ _ listeners =>
    have hle := dials_le_of_work listeners
    exact Nat.le_trans (Nat.le_of_eq hended.symm) hle
  | disconnects _ _ _ listeners =>
    have hle := dials_le_of_work listeners
    exact Nat.le_trans (Nat.le_of_eq hup.symm) hle

theorem dials_le_of_turns (hs : s.Scripted A) (h : Turns A s t) :
    s.network.dials.size ≤ t.network.dials.size := by
  cases h with
  | idle | absent => exact Nat.le_refl _
  | errand hr present other ends =>
    exact Nat.le_of_eq (tidy_of_errand hs hr present other ends).dials.symm
  | resumes hr present resumes =>
    have hpop := (tidy_popped hr).scripted hs
    have hle := dials_le_of_resumes hpop present resumes
    exact hle
  | works hr other work =>
    have hle := dials_le_of_work work
    exact hle

/-- A turn in which no dial is made leaves a link down. -/
theorem stays_of_turns (hA : ∀ q, A q → q.Quiet) (hs : s.Fit A) (hp : s.phase = .disconnected)
    (h : Turns A s t) (size : t.network.dials.size = s.network.dials.size) : StaysDown s t := by
  cases h with
  | idle => exact .refl hp
  | absent hr => exact stays_of_tidy hp (tidy_popped (A := A) hr)
  | errand hr present other ends =>
    exact stays_of_tidy hp (tidy_of_errand hs.scripted hr present other ends)
  | resumes hr present resumes =>
    have hpop := tidy_popped (A := A) hr
    exact (stays_of_tidy hp hpop).trans
      (stays_of_resumes (hpop.scripted hs.scripted) hp present resumes).1
  | works hr other work =>
    have hpop := tidy_popped (A := A) hr
    exact (stays_of_tidy hp hpop).trans (stays_of_work hA (hpop.fit hs) hp work size)

/-! ### Disconnecting -/

/-- The link is down when it has disconnected, unless a listener has connected. -/
theorem down_of_disconnect (ha : Asks A ask) (hA : ∀ q, A q → q.Quiet) (hs : s.Fit A)
    {notify : Bool} (h : disconnect ask notify s = .ok () t)
    (size : t.network.dials.size = s.network.dials.size) : t.phase = .disconnected ∧ t.Clean := by
  rcases disconnect_cases ask hs notify with ⟨words, v, tells, hv, -, e⟩ | ⟨-, w, e⟩
  · have hfit := hs.tells tells
    obtain ⟨u, listeners, rest⟩ := work_of_leave ha hfit (ends_of_ok (e ▸ h))
    have hleft : v.left.network.dials.size = v.network.dials.size := by rw [(left_keeps_dials v).1]
    have hforgot : u.forgotten.network.dials.size = u.network.dials.size := by
      rw [(forgotten_keeps u).1]
    have hle := dials_le_of_work listeners
    have hle' := dials_le_of_work rest
    have hu := stays_of_work hA hfit.left (phase_left v) listeners (by omega)
    have ht := stays_of_work hA (hfit.left.work listeners).forgotten
      ((phase_forgotten u).trans hu.phase) rest (by omega)
    exact ⟨ht.phase, (ht.silent (clean_forgotten u)).1⟩
  · rw [e] at h
    cases h

/-! ### Runs -/

theorem dials_le_of_run (hs : s.Fit A) (h : Run A s t) :
    s.network.dials.size ≤ t.network.dials.size := by
  refine (h.keeps (P := fun t => s.network.dials.size ≤ t.network.dials.size) ?_ ?_ ?_ hs
    (Nat.le_refl _)).2
  · exact fun _ hw hle => Nat.le_trans hle (dials_le_of_work hw)
  · exact fun hu ht hle => Nat.le_trans hle (dials_le_of_turns hu.scripted ht)
  · exact fun hu _ hg hle =>
      Nat.le_trans hle (Nat.le_of_eq (tidy_of_alarm hu.scripted hg).dials.symm)

/-- A run in which no dial is made leaves a link down. -/
theorem stays_of_run (hA : ∀ q, A q → q.Quiet) (hs : s.Fit A) (hsound : s.Sound link)
    (hp : s.phase = .disconnected) (h : Run A s t)
    (size : t.network.dials.size = s.network.dials.size) : t.Sound link ∧ StaysDown s t := by
  have hkeeps : t.Fit A ∧ t.Sound link ∧ s.network.dials.size ≤ t.network.dials.size ∧
      (t.network.dials.size = s.network.dials.size → StaysDown s t) := by
    refine h.keeps (P := fun t => t.Sound link ∧ s.network.dials.size ≤ t.network.dials.size ∧
      (t.network.dials.size = s.network.dials.size → StaysDown s t)) ?_ ?_ ?_ hs
      ⟨hsound, Nat.le_refl _, fun _ => .refl hp⟩
    · rintro u v hu hw ⟨hsu, hle, hdown⟩
      have hmore := dials_le_of_work hw
      refine ⟨(hsu.work hw).sound, by omega, fun hv => ?_⟩
      have hstays := hdown (by omega)
      exact hstays.trans (stays_of_work hA hu hstays.phase hw (by omega))
    · rintro u v hu ht ⟨hsu, hle, hdown⟩
      have hmore := dials_le_of_turns hu.scripted ht
      refine ⟨(hsu.turns ht).sound, by omega, fun hv => ?_⟩
      have hstays := hdown (by omega)
      exact hstays.trans (stays_of_turns hA hu hstays.phase ht (by omega))
    · rintro u v timer hu hm hg ⟨hsu, hle, hdown⟩
      have htidy := tidy_of_alarm hu.scripted hg
      have hsame := htidy.dials
      refine ⟨(hsu.alarm hm hg).sound, by omega, fun hv => ?_⟩
      have hstays := hdown (by omega)
      exact hstays.trans (stays_of_tidy hstays.phase htidy)
  exact ⟨hkeeps.2.1, hkeeps.2.2.2 size⟩

/-- When nothing is ready, all that was opened has been closed once where there is no
connection, provided that the time of a dial can be limited; if it cannot, nothing has. -/
theorem closed_iff_of_apart (hs : s.Sound link) (hp : s.phase ≠ .connected)
    (hr : s.loop.ready = []) :
    (∀ i < s.network.connections.size, s.closes i = 1) ↔
      link.connectTimeout.toFloat?.isSome ∨ s.network.connections.size = 0 := by
  have hspent : ∀ i < s.network.connections.size, s.closes i = fee link := by
    intro i hi
    rw [← hs.spent_of_idle hr hi, spent, (hs.held.1 hp).1]
    simp
  unfold fee at hspent
  constructor
  · intro hall
    by_cases hsize : s.network.connections.size = 0
    · exact .inr hsize
    · refine .inl (Decidable.byContradiction fun hn => ?_)
      have hone := hall 0 (by omega)
      rw [hspent 0 (by omega), if_neg hn] at hone
      cases hone
  · rintro (hsome | hsize) i hi
    · rw [hspent i hi, if_pos hsome]
    · omega

end Session
end DiagnosticWatch
