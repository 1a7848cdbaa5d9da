/-
# No change is missed

Whoever listens for changes has seen what is stored: if no change is marked,
then what is stored is what was stored when the latest change signal began. A
mark may be forgotten without a signal only with nothing stored, and then the
latest signal told so (`Session.Seen`). This holds at every moment at which a
listener may run, so that it does not matter what listeners ask for.

It holds as long as nobody else puts reports into the store.

Key definitions: `Session.Seen`.
Key theorems: `Session.seen_of_run`, `Session.stored_eq_lastSignal`.
-/
import DiagnosticWatch.Proofs.Session.Runs

namespace DiagnosticWatch

/-- The request leaves the store to the link. -/
def Request.KeepsStore : Request → Prop
  | .put .. => False
  | _ => True

namespace Session

open Act

variable {A : Request → Prop} {s t : Session}

/-- The latest signal told what is stored, unless a change is marked; and it told that
nothing is stored, if nothing is. -/
structure Seen (s : Session) : Prop where
  stored : s.link.signal.dirty = false → s.link.store.reports = s.lastSignal
  nothing : s.link.store.isEmpty = true → s.lastSignal = []

theorem Seen.congr (h : s.Seen) (hs : t.link.store = s.link.store)
    (hd : t.link.signal.dirty = s.link.signal.dirty) (hl : t.lastSignal = s.lastSignal) : t.Seen where
  stored := by
    rw [hs, hd, hl]
    exact h.stored
  nothing := by
    rw [hs, hl]
    exact h.nothing

/-! ### One change -/

/-- A mark makes up for whatever is stored, as long as something is. -/
theorem Seen.mark (h : s.link.store.isEmpty = true → s.lastSignal = []) : s.marked.Seen where
  stored hd := by
    rw [show s.marked.link.signal.dirty = true from ChangeSignal.mark_dirty ..] at hd
    cases hd
  nothing := h

theorem isEmpty_put (store : Store) (report : Report) : (store.put report).isEmpty = false := by
  simp [Store.isEmpty, Store.put]

theorem lastSignal_signalled (s : Session) : s.signalled.lastSignal = s.link.store.reports := rfl

theorem Seen.signal (s : Session) : s.signalled.Seen where
  stored _ := rfl
  nothing he := by
    rw [lastSignal_signalled]
    exact List.isEmpty_iff.mp he

theorem Seen.change (h : s.Seen) (hc : Change Request.KeepsStore s t) : t.Seen := by
  cases hc with
  | plain alike => exact h.congr alike.store alike.dirty alike.lastSignal
  | listen => exact h.congr rfl rfl rfl
  | put report asked =>
    obtain ⟨path, notes, own⟩ := asked
    cases own
  | mark => exact Seen.mark h.nothing
  | report report =>
    refine Seen.mark fun he => ?_
    rw [show (s.stored report).link.store.isEmpty = false from isEmpty_put _ _] at he
    cases he
  | signal => exact Seen.signal s

theorem Seen.part (h : s.Seen) (hp : Part s t) : t.Seen := by
  cases hp with
  | alike alike => exact h.congr alike.store alike.dirty alike.lastSignal
  | @word e he => exact h.congr rfl rfl (by cases e <;> first | rfl | cases he)
  | setOut | dial => exact h.congr rfl rfl rfl
  | @cancel u _ _ hc =>
    obtain ⟨hl, ht, -⟩ := cancelDial_keeps hc
    have hu : u.Seen := h.congr (by rw [hl]) (by rw [hl]) (by rw [lastSignal, ht]; rfl)
    exact hu.congr rfl rfl rfl

/-- Leaving a connection keeps what is stored, and the mark with it. -/
theorem Seen.left (h : s.Seen) : s.left.Seen := by
  unfold Session.left parted closedHeld
  split <;> split <;> exact h.congr rfl rfl rfl

/-- The mark is forgotten with nothing stored, which the latest signal has told. -/
theorem Seen.forgotten (h : s.Seen) : s.forgotten.Seen := by
  unfold Session.forgotten
  split
  · rename_i he
    have hstored : s.link.store.reports = s.lastSignal :=
      (List.isEmpty_iff.mp he).trans (h.nothing he).symm
    exact ⟨fun _ => hstored, fun _ => h.nothing he⟩
  · exact ⟨fun _ => rfl, fun _ => rfl⟩

/-! ### Work, turns and runs -/

theorem Seen.work (h : s.Seen) (hw : Work Request.KeepsStore s t) : t.Seen :=
  hw.keeps (fun hc h => h.change hc) (fun hp h => h.part hp) Seen.left Seen.forgotten h

theorem Seen.tidy (h : s.Seen) (ht : Tidy A s t) : t.Seen :=
  h.congr (by rw [ht.link]) (by rw [ht.link]) ht.lastSignal

theorem Seen.turns (h : s.Seen) (hsc : s.Scripted Request.KeepsStore)
    (ht : Turns Request.KeepsStore s t) : t.Seen := by
  cases ht with
  | idle => exact h
  | absent hr => exact h.congr rfl rfl rfl
  | errand hr present other ends => exact h.tidy (tidy_of_errand hsc hr present other ends)
  | works hr other work =>
    refine Seen.work ?_ work
    exact h.congr rfl rfl rfl
  | resumes hr present resumes =>
    cases resumes with
    | late | settles | dies | givesUp | refused | ignored => exact h.congr rfl rfl rfl
    | connects _ _ _ listeners | disconnects _ _ _ listeners =>
      refine Seen.work ?_ listeners
      exact h.congr rfl rfl rfl

theorem Seen.alarm (h : s.Seen) (hsc : s.Scripted A) {timer : Timer}
    (hg : (goOff timer.alarm).Ends (s.disarmed timer.alarm) t) : t.Seen :=
  h.tidy (tidy_of_alarm hsc hg)

theorem seen_of_run {link pacer : Settings} {outcomes : List Outcome}
    {probe : Option (List (Option Json))}
    (ho : ∀ o ∈ outcomes, Script.Within Request.KeepsStore o.race)
    (h : Run Request.KeepsStore (start link pacer .empty outcomes probe) s) : s.Seen :=
  (h.keeps (fun _ hw h => h.work hw) (fun hs ht h => h.turns hs.scripted ht)
    (fun hs _ hg h => h.alarm hs.scripted hg) (fit_start link pacer .empty probe ho)
    ⟨fun _ => rfl, fun _ => rfl⟩).2

/-- At every point of every run that begins with nothing stored, and in which only the
link puts reports into the store: if no change is marked, what is stored is what the
latest change signal told of, or nothing before the first. -/
theorem stored_eq_lastSignal (link pacer : Settings) (outcomes : List Outcome)
    (probe : Option (List (Option Json)))
    (ho : ∀ o ∈ outcomes, Script.Within Request.KeepsStore o.race)
    (h : Run Request.KeepsStore (start link pacer .empty outcomes probe) s)
    (hd : s.link.signal.dirty = false) : s.link.store.reports = s.lastSignal :=
  (seen_of_run ho h).stored hd

theorem stored_of_fire :
    let s := (start {} {} .empty [⟨.opens, .int 0, .none,
        [11, 0, 0, 0, 0, 3, 0, 0, 0, 47, 97, 0, 0, 0, 0, 0], false, []⟩] none).after
      [.ask (.connect "127.0.0.1" (.int 27099)), .pass (.int 0), .ask .tick, .ask .fire]
    s.link.store.size = 1 ∧ s.link.store.reports = s.lastSignal := by
  intro s
  have hwithin : ∀ step ∈ [Step.ask (.connect "127.0.0.1" (.int 27099)), .pass (.int 0), .ask .tick,
      .ask .fire], StepWithin Request.KeepsStore step := by
    intro step hm
    simp only [List.mem_cons, List.not_mem_nil, or_false] at hm
    rcases hm with rfl | rfl | rfl | rfl
    · exact Request.within_plain trivial rfl
    · trivial
    · exact Request.within_plain trivial rfl
    · exact Request.within_plain trivial rfl
  have hrun := run_of_steps (s := start {} {} .empty [⟨.opens, .int 0, .none,
    [11, 0, 0, 0, 0, 3, 0, 0, 0, 47, 97, 0, 0, 0, 0, 0], false, []⟩] none) _ hwithin (by decide +kernel)
  have hrace : ∀ o ∈ [(⟨.opens, .int 0, .none,
      [11, 0, 0, 0, 0, 3, 0, 0, 0, 47, 97, 0, 0, 0, 0, 0], false, []⟩ : Outcome)],
      Script.Within Request.KeepsStore o.race := by
    intro o ho
    cases List.mem_singleton.mp ho
    exact Script.within_nil _
  exact ⟨by decide +kernel, stored_eq_lastSignal {} {} _ none hrace hrun (by decide +kernel)⟩

end Session
end DiagnosticWatch
