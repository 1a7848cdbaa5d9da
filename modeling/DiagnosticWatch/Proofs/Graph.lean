/-
# The graph of phases

Four edges lead from phase to phase. Whatever is asked of a lifecycle, by anybody
and by its listeners in the middle of a round, the steps that are made are a path
along these edges: a step is made only from where the one before it ended, since
the phase changes before the listeners hear of it, and any other step is refused
before anything has changed.

Key definitions: `Phase.Edge`, `Phase.Path`.
Key theorems: `Phase.edge_iff`, `Lifecycle.Alone.roams_of_run`,
`Lifecycle.Alone.perform_of_not_edge`.
-/
import DiagnosticWatch.Proofs.Lifecycle

namespace DiagnosticWatch
namespace Phase

/-- The edges between phases. -/
inductive Edge : Phase → Phase → Prop
  /-- A connection is attempted. -/
  | attempt : Edge .disconnected .connecting
  | succeed : Edge .connecting .connected
  | fail : Edge .connecting .disconnected
  /-- A connection is lost or left. -/
  | part : Edge .connected .disconnected

/-- The steps are a path along the edges, from one phase to the other. -/
inductive Path : Phase → List (Phase × Phase) → Phase → Prop
  | nil (p : Phase) : Path p [] p
  | cons {p q r : Phase} {steps : List (Phase × Phase)} (first : p.Edge q)
      (rest : Path q steps r) : Path p ((p, q) :: steps) r

variable {p q r : Phase} {steps more : List (Phase × Phase)}

theorem edge_iff : p.Edge q ↔ p.canBecome q = true := by
  constructor
  · rintro ⟨⟩ <;> rfl
  · intro h
    cases p <;> cases q <;> first | exact .attempt | exact .succeed | exact .fail | exact .part | cases h

instance : Decidable (p.Edge q) :=
  decidable_of_iff _ edge_iff.symm

theorem canBecome_of_not_edge (h : ¬ p.Edge q) : p.canBecome q = false :=
  Bool.eq_false_iff.mpr fun hc => h (edge_iff.mpr hc)

theorem Path.append (h : Path p steps q) (h' : Path q more r) : Path p (steps ++ more) r := by
  induction h with
  | nil => exact h'
  | cons first _ ih => exact .cons first (ih h')

theorem Path.snoc (h : Path p steps q) (last : q.Edge r) : Path p (steps ++ [(q, r)]) r :=
  h.append (.cons last (.nil r))

end Phase

namespace Lifecycle
namespace Alone

open Act

variable {w w' : Alone} {ask : Request → Act Alone Answer}

/-- The steps that are told from the world `w` to `w'` are a path between their phases. -/
def Roams (w w' : Alone) : Prop :=
  ∃ events, w'.trace.events = w.trace.events ++ events ∧
    Phase.Path w.life.phase (stepsOf events) w'.life.phase

instance : IsPreorder Alone Roams where
  refl w := ⟨[], (List.append_nil _).symm, .nil _⟩
  trans _ _ _ := by
    rintro ⟨events, ht, hp⟩ ⟨more, ht', hp'⟩
    refine ⟨events ++ more, ?_, ?_⟩
    · rw [ht', ht, List.append_assoc]
    · rw [stepsOf_append]
      exact hp.append hp'

/-- Something is told that is no step. -/
theorem roams_of_event {e : Event} (ht : w'.trace = w.trace.record e) (he : e.step? = none)
    (hp : w'.life.phase = w.life.phase) : Roams w w' := by
  refine ⟨[e], by rw [ht, Trace.events_record], ?_⟩
  rw [stepsOf, List.filterMap_cons_none he, hp]
  exact .nil _

theorem roams_stepped {target : Phase} (h : w.life.phase.Edge target) :
    Roams w (w.stepped target) :=
  ⟨[.moved w.life.phase target], events_stepped target, .cons h (.nil target)⟩

theorem leads_call_roams (hask : ∀ q w, Leads Roams (ask q) w) (l : Listener Request)
    (old new : Phase) (w : Alone) : Leads Roams (call ask l old new) w := by
  refine Leads.step (tell_apply _ w) (roams_of_event (e := .called l.serial old new) rfl rfl rfl) ?_
  refine Leads.step (tell_apply _ _) (roams_of_event (e := .state l.name old new) rfl rfl rfl) ?_
  refine Leads.ensuring (leads_listener (fun q a v => ?_) l _ hask) fun v => ?_
  · exact roams_of_event (e := .nested _ a) rfl rfl rfl
  · exact roams_of_event (e := .returned l.serial) rfl rfl rfl

theorem leads_transition_roams (hask : ∀ q w, Leads Roams (ask q) w) (target : Phase) (w : Alone) :
    Leads Roams (transition (ρ := Request) (call ask) target) w := by
  by_cases hc : w.life.phase.Edge target
  · refine Leads.after (roams_stepped hc) ?_ (transition_of (Phase.edge_iff.mp hc))
    exact leads_announce (fun v => roams_of_event (e := .log .error _) rfl rfl rfl) w.life.listeners
      (w.stepped target) fun l _ v => leads_call_roams hask l w.life.phase target v
  · refine Leads.after (y := throw (.badTransition w.life.phase target)) ?_ (Leads.throw _ _)
      (transition_of_not (Phase.canBecome_of_not_edge hc))
    exact roams_of_event (e := .refused w.life.phase target) rfl rfl rfl

theorem leads_answer_roams (hask : ∀ q w, Leads Roams (ask q) w) (q : Request) (w : Alone) :
    Leads Roams (answer ask q) w := by
  cases q with
  | transition target =>
    refine Leads.bind (leads_transition_roams hask target w) fun _ v _ _ => ?_
    exact leads_of_ok rfl (roams_of_event (e := .announced) rfl rfl rfl)
  | canBecome target => exact leads_of_ok rfl (refl_of Roams w)
  | describe => exact leads_of_ok rfl (refl_of Roams w)
  | represent => exact leads_of_ok rfl (refl_of Roams w)
  | listen name script =>
    exact leads_of_ok rfl (roams_of_event (e := .registered w.known.length) rfl rfl rfl)
  | remove name =>
    unfold answer
    rw [leads_get_bind]
    cases Listener.latest? w.known name with
    | some l => exact leads_of_ok rfl (roams_of_event (e := .removed l.serial) rfl rfl rfl)
    | none => exact leads_of_ok rfl (refl_of Roams w)

/-- Whatever is asked of a lifecycle in whatever phase and with whatever listeners, the steps that
are made are a path from its phase at first to its phase at last. -/
theorem roams_of_run (h : Run w w') : Roams w w' :=
  h.rel fun _ hask => leads_answer_roams hask

/-- A step along no edge is refused: nothing happens but that this is told. -/
theorem perform_of_not_edge (depth : ℕ) {target : Phase} (h : ¬ w.life.phase.Edge target) :
    perform (depth + 1) (.transition target) w = .error (.badTransition w.life.phase target)
      { w with trace := w.trace.record (.refused w.life.phase target) } :=
  bind_of_error (transition_of_not (Phase.canBecome_of_not_edge h))

end Alone
end Lifecycle
end DiagnosticWatch
