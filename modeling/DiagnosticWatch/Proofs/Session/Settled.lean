/-
# What a session holds

Between two calls a session is connected and has a connection, read and
written alike, or it is not and has none, and then nothing is stored and no
change is marked. While a connection is being dropped this does not hold, for
the state listeners run before the reports are forgotten; but forgetting makes
up for whatever they did.

That holds as long as nobody else puts reports into the store or marks
changes.

Key definitions: `Session.Settled`, `Request.Own`.
Key theorems: `Session.settled_of_run`.
-/
import DiagnosticWatch.Proofs.Session.ClosedOnce

namespace DiagnosticWatch

/-- The request leaves the store and the mark to the link. -/
def Request.Own : Request → Prop
  | .put .. | .mark => False
  | _ => True

namespace Session

open Act

variable {A : Request → Prop} {s t : Session} {link : Settings}

/-- The session holds what it should in its phase. -/
structure Settled (s : Session) : Prop where
  /-- A session that is not connected has no connection and nothing stored or marked. -/
  down : s.phase ≠ .connected →
    s.link.writesTo = none ∧ s.link.readsFrom = none ∧
      s.link.store.isEmpty = true ∧ s.link.signal.dirty = false
  /-- A connected session writes to and reads from one connection that an attempt has
  opened. -/
  up : s.phase = .connected → ∃ d i, s.Opened d i ∧
    s.link.writesTo = some i ∧ s.link.readsFrom = some i

/-- Nothing is stored and no change is marked unless the link is connected. -/
def Clean (s : Session) : Prop :=
  s.phase ≠ .connected → s.link.store.isEmpty = true ∧ s.link.signal.dirty = false

theorem Clean.congr (h : s.Clean) (hp : t.phase = s.phase) (hs : t.link.store = s.link.store)
    (hd : t.link.signal.dirty = s.link.signal.dirty) : t.Clean := by
  unfold Clean at h ⊢
  rwa [hp, hs, hd]

/-! ### One change -/

/-- A report is received only on a connection. -/
theorem connected_of_reading (hs : s.Sound link) (h : s.link.readsFrom ≠ none) :
    s.phase = .connected :=
  Decidable.byContradiction fun hp => h (hs.held.1 hp).2

theorem Clean.change (h : s.Clean) (hs : s.Sound link) (hc : Change Request.Own s t) : t.Clean := by
  cases hc with
  | plain alike => exact h.congr alike.phase alike.store alike.dirty
  | listen => exact h.congr rfl rfl rfl
  | put report asked =>
    obtain ⟨path, notes, own⟩ := asked
    cases own
  | mark asked => cases asked
  | report report reading => exact fun hp => absurd (connected_of_reading hs reading) hp
  | signal => exact fun hp => ⟨(h hp).1, rfl⟩

theorem Clean.part (h : s.Clean) (hp : Part s t) : t.Clean := by
  cases hp with
  | alike alike => exact h.congr alike.phase alike.store alike.dirty
  | word | dial => exact h.congr rfl rfl rfl
  | setOut hp => exact fun _ => h (by rw [hp]; decide)
  | @cancel u _ _ hc =>
    have hl := (cancelDial_keeps hc).1
    have hu : u.Clean := h.congr (by rw [phase, hl]; rfl) (by rw [hl]) (by rw [hl])
    exact hu.congr rfl rfl rfl

/-- Forgetting leaves nothing, whatever happened before. -/
theorem clean_forgotten (s : Session) : s.forgotten.Clean := by
  intro _
  unfold forgotten
  split
  · rename_i he
    exact ⟨he, rfl⟩
  · exact ⟨rfl, rfl⟩

/-! ### Work, turns and runs -/

/-- The induction is on the work; what the listeners do to a connection that is being
dropped does not matter. -/
theorem Clean.work (h : s.Clean) (hs : s.Sound link) (hw : Work Request.Own s t) : t.Clean := by
  induction hw with
  | refl => exact h
  | change first _ ih => exact ih (h.change hs first) (hs.change first).sound
  | speak _ _ tells _ ih =>
    exact ih (tells.keeps (P := Clean) (fun hp h => h.part hp) h) (hs.tells tells).sound
  | drop _ tells listeners _ _ ih =>
    exact ih (clean_forgotten _)
      ((hs.tells tells).sound.left.sound.work listeners).sound.forgotten.sound
  | connect host port down listeners apart _ ih ih' =>
    have hout := hs.part (.setOut down)
    exact ih' ((ih (h.part (.setOut down)) hout.sound).part (.dial host port apart))
      ((hout.sound.work listeners).sound.part (.dial host port apart)).sound

theorem Clean.tidy (h : s.Clean) (ht : Tidy A s t) : t.Clean :=
  h.congr (by rw [phase, ht.link]; rfl) (by rw [ht.link]) (by rw [ht.link])

theorem Clean.turns (h : s.Clean) (hs : s.Sound link) (hsc : s.Scripted Request.Own)
    (ht : Turns Request.Own s t) : t.Clean := by
  cases ht with
  | idle => exact h
  | absent hr => exact h.congr rfl rfl rfl
  | errand hr present other ends => exact h.tidy (tidy_of_errand hsc hr present other ends)
  | works hr other work =>
    refine Clean.work ?_ (hs.popped hr other).sound work
    exact h.congr rfl rfl rfl
  | resumes hr present resumes =>
    cases resumes with
    | late | settles | dies | givesUp | refused | ignored => exact h.congr rfl rfl rfl
    | connects stage shield phase listeners =>
      exact Clean.work (fun hp => absurd rfl hp) (hs.connected hr present stage shield phase).sound
        listeners
    | disconnects word text phase listeners =>
      have hdown := h (by rw [show s.phase = .connecting from phase]; decide)
      refine Clean.work ?_ (hs.disconnected hr present word text phase).sound listeners
      exact fun _ => hdown

theorem Clean.alarm (h : s.Clean) (hsc : s.Scripted A) {timer : Timer}
    (hg : (goOff timer.alarm).Ends (s.disarmed timer.alarm) t) : t.Clean :=
  h.tidy (tidy_of_alarm hsc hg)

theorem settled_of_sound (hs : s.Sound link) (h : s.Clean) : s.Settled where
  down hp := ⟨(hs.held.1 hp).1, (hs.held.1 hp).2, h hp⟩
  up hp := by
    obtain ⟨i, hw, hr⟩ := hs.held.2 hp
    have hspent : s.spent i ≠ 0 := by
      unfold spent
      rw [hw, if_pos rfl]
      omega
    have hi : i < s.network.connections.size :=
      Decidable.byContradiction fun h => hspent (hs.unspent i (by omega))
    obtain ⟨d, ho⟩ := hs.owner i hi
    exact ⟨d, i, ho, hw, hr⟩

/-- At every point of every run that begins with nothing stored, and in which only the
link puts reports into the store and marks changes, the session holds what it should. -/
theorem settled_of_run (link pacer : Settings) (outcomes : List Outcome)
    (probe : Option (List (Option Json))) (ho : ∀ o ∈ outcomes, Script.Within Request.Own o.race)
    (h : Run Request.Own (start link pacer .empty outcomes probe) s) : s.Settled := by
  have hs : s.Fit Request.Own ∧ s.Sound link ∧ s.Clean := by
    refine h.keeps (P := fun s => s.Sound link ∧ s.Clean) ?_ ?_ ?_
      (fit_start link pacer .empty probe ho)
      ⟨sound_start link pacer .empty outcomes probe, fun _ => ⟨rfl, rfl⟩⟩
    · exact fun _ hw ⟨hs, hc⟩ => ⟨(hs.work hw).sound, hc.work hs hw⟩
    · exact fun hsc ht ⟨hs, hc⟩ => ⟨(hs.turns ht).sound, hc.turns hs hsc.scripted ht⟩
    · exact fun hsc hm hg ⟨hs, hc⟩ => ⟨(hs.alarm hm hg).sound, hc.alarm hsc.scripted hg⟩
  exact settled_of_sound hs.2.1 hs.2.2

theorem settled_of_connect :
    let s := (start {} {} .empty [⟨.opens, .int 0, .none, [], false, []⟩] none).after
      [.ask (.connect "127.0.0.1" (.int 27099)), .pass (.int 0)]
    ∃ d i, s.Opened d i ∧ s.link.writesTo = some i ∧ s.link.readsFrom = some i := by
  intro s
  have hwithin : ∀ step ∈ [Step.ask (.connect "127.0.0.1" (.int 27099)), .pass (.int 0)],
      StepWithin Request.Own step := by
    intro step hm
    simp only [List.mem_cons, List.not_mem_nil, or_false] at hm
    rcases hm with rfl | rfl
    · exact Request.within_plain trivial rfl
    · trivial
  have hrun := run_of_steps (s := start {} {} .empty [⟨.opens, .int 0, .none, [], false, []⟩] none)
    _ hwithin (by decide +kernel)
  have hrace : ∀ o ∈ [(⟨.opens, .int 0, .none, [], false, []⟩ : Outcome)],
      Script.Within Request.Own o.race := by
    intro o ho
    cases List.mem_singleton.mp ho
    exact Script.within_nil _
  exact (settled_of_run {} {} _ none hrace hrun).up (by decide +kernel)

end Session
end DiagnosticWatch
