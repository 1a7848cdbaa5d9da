/-
# Runs of a session

A run passes from one point at which nobody is in the middle of a call to the
next: a request is answered, the loop takes a turn, a timer goes off whenever
it may, the clock is set, the pacer changes its notes, or it is stopped. The
order of these moves is free, so that the points inside a step, and inside a
tick of the pacer, are points of some run.

Key definitions: `Move`, `Session.Run`, `Session.Unpaced`, `Session.Along`,
`Session.after`.
Key theorems: `Session.Run.keeps`, `Session.Along.derive`, `Session.run_of_steps`.
-/
import DiagnosticWatch.Proofs.Session.Turns
import Mathlib.Logic.Relation

namespace DiagnosticWatch

/-- What happens to a session from one point to the next. -/
inductive Move where
  | ask (request : Request)
  | turn
  | alarm (timer : Timer)
  | clock (now : Float)
  /-- The pacer changes its notes, as it does between two calls of a tick. -/
  | pace (pacer : Pacer)
  | stop

namespace Session

open Act

variable {A : Request → Prop} {s t : Session}

/-- The move takes the session `s` to `t`, where what is asked is within `A`. -/
def Moves (A : Request → Prop) : Move → Session → Session → Prop
  | .ask request, s, t => request.Within A ∧ ∃ depth, (perform depth request).Ends s t
  | .turn, s, t => ∃ depth, (turn (perform depth)).Ends s t
  | .alarm timer, s, t =>
    timer ∈ s.loop.timers ∧ (goOff timer.alarm).Ends (s.disarmed timer.alarm) t
  | .clock now, s, t => t = { s with loop := { s.loop with now } }
  | .pace pacer, s, t => t = { s with pacer }
  | .stop, s, t => ∃ depth, (stop (perform depth)).Ends s t

/-- Some moves take `s` to `t`, one after the other. -/
def Run (A : Request → Prop) : Session → Session → Prop :=
  Relation.ReflTransGen fun s t => ∃ move, Moves A move s t

instance : IsPreorder Session (Run A) where
  refl _ := Relation.ReflTransGen.refl
  trans _ _ _ := Relation.ReflTransGen.trans

theorem run_of_move (move : Move) (h : Moves A move s t) : Run A s t :=
  .single ⟨move, h⟩

/-- Some moves take `s` to `t`, and nobody but the pacer changes its notes. -/
def Unpaced (A : Request → Prop) : Session → Session → Prop :=
  Relation.ReflTransGen fun s t => ∃ move, (∀ pacer, move ≠ .pace pacer) ∧ Moves A move s t

instance : IsPreorder Session (Unpaced A) where
  refl _ := Relation.ReflTransGen.refl
  trans _ _ _ := Relation.ReflTransGen.trans

theorem unpaced_of_move (move : Move) (hn : ∀ pacer, move ≠ .pace pacer)
    (h : Moves A move s t) : Unpaced A s t :=
  .single ⟨move, hn, h⟩

theorem Unpaced.run (h : Unpaced A s t) : Run A s t :=
  h.lift id fun _ _ ⟨move, _, hm⟩ => ⟨move, hm⟩

/-- What a move does is work, a turn of the loop, or that a timer goes off. -/
theorem moves_cases (hs : s.Fit A) {move : Move} (h : Moves A move s t) :
    Work A s t ∨ (move = .turn ∧ Turns A s t) ∨
      ∃ timer ∈ s.loop.timers, (goOff timer.alarm).Ends (s.disarmed timer.alarm) t := by
  cases move with
  | ask request =>
    obtain ⟨hw, depth, h⟩ := h
    exact .inl (works_perform depth request hw s t h hs)
  | turn =>
    obtain ⟨depth, h⟩ := h
    exact .inr (.inl ⟨rfl, turns_of_turn (works_perform depth) hs h⟩)
  | alarm timer => exact .inr (.inr ⟨timer, h⟩)
  | clock now =>
    cases h
    exact .inl (.of_alike (alike_loop s rfl rfl))
  | pace pacer =>
    cases h
    exact .inl (.of_alike (alike_pacer s pacer))
  | stop =>
    obtain ⟨depth, h⟩ := h
    exact .inl (works_stop (works_perform depth) s t h hs)

theorem Fit.moves (hs : s.Fit A) {move : Move} (h : Moves A move s t) : t.Fit A := by
  rcases moves_cases hs h with h | ⟨-, h⟩ | ⟨timer, -, h⟩
  · exact hs.work h
  · exact hs.turns h
  · exact (tidy_of_alarm hs.scripted h).fit hs

/-- What work, turns and timers keep, every run keeps. -/
theorem Run.keeps {P : Session → Prop}
    (work : ∀ {s t}, s.Fit A → Work A s t → P s → P t)
    (turns : ∀ {s t}, s.Fit A → Turns A s t → P s → P t)
    (alarm : ∀ {s t timer}, s.Fit A → timer ∈ s.loop.timers →
      (goOff timer.alarm).Ends (s.disarmed timer.alarm) t → P s → P t)
    (h : Run A s t) (hs : s.Fit A) (hp : P s) : t.Fit A ∧ P t := by
  induction h with
  | refl => exact ⟨hs, hp⟩
  | tail _ hm ih =>
    obtain ⟨hs', hp'⟩ := ih
    obtain ⟨move, hm⟩ := hm
    refine ⟨hs'.moves hm, ?_⟩
    rcases moves_cases hs' hm with h | ⟨-, h⟩ | ⟨timer, hmem, h⟩
    · exact work hs' h hp'
    · exact turns hs' h hp'
    · exact alarm hs' hmem h hp'

/-- Every session of a run is fit. -/
theorem Fit.run (hs : s.Fit A) (h : Run A s t) : t.Fit A :=
  (h.keeps (P := fun _ => True) (fun _ _ h => h) (fun _ _ h => h) (fun _ _ _ h => h) hs trivial).1

/-- Along a path from `s`, each move with the points before and after it is one of
which `P` holds. -/
def Along (P : Session → Move → Session → Prop) : Session → List (Move × Session) → Prop
  | _, [] => True
  | s, (move, t) :: path => P s move t ∧ Along P t path

/-- What follows at each move of a path from an invariant, which the moves keep, follows
along the path. -/
theorem Along.derive {P Q : Session → Move → Session → Prop} (I : Session → Prop)
    (step : ∀ {s move t}, I s → P s move t → I t ∧ Q s move t) {path : List (Move × Session)}
    (h : Along P s path) (hs : I s) : Along Q s path := by
  induction path generalizing s with
  | nil => trivial
  | cons first path ih =>
    obtain ⟨ht, hq⟩ := step hs h.1
    exact ⟨hq, ih h.2 ht⟩

theorem Along.and {P Q : Session → Move → Session → Prop} {path : List (Move × Session)}
    (h : Along P s path) (h' : Along Q s path) :
    Along (fun s move t => P s move t ∧ Q s move t) s path := by
  induction path generalizing s with
  | nil => trivial
  | cons first path ih => exact ⟨⟨h.1, h'.1⟩, ih h.2 h'.2⟩

/-- At the start only the outcomes bring scripts. -/
theorem scripted_start (link pacer : Settings) (store : Store) {outcomes : List Outcome}
    (probe : Option (List (Option Json))) (h : ∀ o ∈ outcomes, Script.Within A o.race) :
    (start link pacer store outcomes probe).Scripted A where
  life := nofun
  signal := nofun
  outcomes := h
  dials _ _ hd := by
    unfold dial? start at hd
    simp at hd
  ready := nofun

/-- So a session is fit at the start if what the outcomes bring is within `A`. -/
theorem fit_start (link pacer : Settings) (store : Store) {outcomes : List Outcome}
    (probe : Option (List (Option Json))) (h : ∀ o ∈ outcomes, Script.Within A o.race) :
    (start link pacer store outcomes probe).Fit A :=
  ⟨scripted_start link pacer store probe h, fun _ => ⟨rfl, rfl⟩, nofun⟩

mutual

/-- If everything is admitted, so is every request with all its scripts. -/
theorem within_of_all (h : ∀ q, A q) (request : Request) : Request.Within A request := by
  cases request with
  | subscribe name script | onState name script only =>
    exact ⟨h _, fun trace => script_within_of_all h (script trace)⟩
  | _ => exact Request.within_plain (h _) rfl
termination_by structural request

theorem script_within_of_all (h : ∀ q, A q) (script : List (Reaction Request)) :
    Script.Within A script := by
  cases script with
  | nil => exact Script.within_nil A
  | cons first script =>
    exact fun q hq => (List.mem_cons.mp hq).elim (fun e => reaction_within_of_all h first q e.symm)
      (script_within_of_all h script q)
termination_by structural script

theorem reaction_within_of_all (h : ∀ q, A q) (reaction : Reaction Request) :
    ∀ q, reaction = .ask q → Request.Within A q := by
  cases reaction with
  | fail text => nofun
  | ask request => exact fun q hq => Reaction.ask.inj hq ▸ within_of_all h request
termination_by structural reaction

end

/-! ### Steps are runs -/

/-- What a step asks for is within `A`. -/
def StepWithin (A : Request → Prop) : Step → Prop
  | .ask request => request.Within A
  | _ => True

theorem stepWithin_of_all (h : ∀ q, A q) (step : Step) : StepWithin A step := by
  cases step with
  | ask request => exact within_of_all h request
  | pass | stop => trivial

theorem leads_turn (depth : Nat) (s : Session) : Leads (Unpaced A) (turn (perform depth)) s :=
  fun _ h => unpaced_of_move .turn (fun _ => Move.noConfusion) ⟨depth, h⟩

theorem leads_settleAll_unpaced (depth bound : Nat) (s : Session) :
    Leads (Unpaced A) (settleAll (perform depth) bound) s := by
  induction bound generalizing s with
  | zero => exact Leads.pure () s
  | succ bound ih =>
    unfold settleAll
    refine Leads.bind (leads_turn depth s) fun a v _ _ => ?_
    split
    · exact ih v
    · exact Leads.pure () v

theorem leads_settleAll (depth bound : Nat) (s : Session) :
    Leads (Run A) (settleAll (perform depth) bound) s :=
  fun t h => (leads_settleAll_unpaced depth bound s t h).run

theorem mem_of_earliest? {timers : List Timer} {timer : Timer} (h : earliest? timers = some timer) :
    timer ∈ timers := by
  induction timers generalizing timer with
  | nil => cases h
  | cons other timers ih =>
    unfold earliest? at h
    split at h
    · rename_i first hf
      split at h <;> cases h
      · exact List.mem_cons_of_mem _ (ih hf)
      · exact List.mem_cons_self
    · cases h
      exact List.mem_cons_self

theorem unpaced_clock (now : Float) (s : Session) :
    Unpaced A s { s with loop := { s.loop with now } } :=
  unpaced_of_move (.clock now) (fun _ => Move.noConfusion) rfl

theorem leads_alarm {timer : Timer} (h : timer ∈ s.loop.timers) :
    Leads (Unpaced A) (disarm timer.alarm >>= fun _ => goOff timer.alarm) s :=
  fun _ hg => unpaced_of_move (.alarm timer) (fun _ => Move.noConfusion) ⟨h, hg⟩

theorem leads_elapse (depth jobs : Nat) (target : Float) (bound : Nat) (s : Session) :
    Leads (Unpaced A) (elapse (perform depth) jobs target bound) s := by
  induction bound generalizing s with
  | zero => exact Leads.pure () s
  | succ bound ih =>
    unfold elapse
    rw [leads_get_bind]
    split
    · rename_i timer he
      split
      · refine Leads.after (unpaced_clock timer.due s) (Leads.bind (leads_alarm (mem_of_earliest? he))
          fun _ v _ _ => Leads.bind (leads_settleAll_unpaced depth jobs v) fun _ u _ _ => ih u) ?_
        rw [bind_assoc]
        rfl
      · exact Leads.pure () s
    · exact Leads.pure () s

theorem leads_pass (depth bound : Nat) (seconds : Number) (s : Session) :
    Leads (Unpaced A) (pass (perform depth) bound seconds) s := by
  have hp : ∀ x : Float, Leads (Unpaced A) (do
      settleAll (perform depth) bound
      elapse (perform depth) bound (s.loop.now + x) bound
      onLoop fun l => { l with now := s.loop.now + x }) s := fun x =>
    Leads.bind (leads_settleAll_unpaced depth bound s) fun _ v _ _ =>
      Leads.bind (leads_elapse depth bound _ bound v) fun _ u _ _ =>
        leads_of_ok (onLoop_apply _ u) (unpaced_clock _ u)
  unfold pass inSeconds
  rw [leads_get_bind]
  cases seconds.toFloat? with
  | some x => exact hp x
  | none => exact Leads.bind (Leads.throw _ s) fun x v e _ => nomatch e

theorem leads_takeStep (depth bound : Nat) {step : Step} (h : StepWithin A step) (s : Session) :
    Leads (Unpaced A) (takeStep (perform depth) bound step) s := by
  cases step with
  | ask request =>
    exact fun t ht => unpaced_of_move (.ask request) (fun _ => Move.noConfusion) ⟨h, depth, ht⟩
  | pass seconds =>
    exact Leads.bind (leads_pass depth bound seconds s) fun _ v _ _ => Leads.pure _ v
  | stop =>
    refine Leads.bind (leads_pass depth bound _ s) fun _ v _ _ => Leads.bind
      (fun t ht => unpaced_of_move .stop (fun _ => Move.noConfusion) ⟨depth, ht⟩) fun _ u _ _ =>
        Leads.bind (leads_pass depth bound _ u) fun _ w _ _ => Leads.pure _ w

theorem step_eq_leaves (s : Session) (step : Step) :
    (s.step step).2 = (takeStep (perform maxDepth) maxJobs step).leaves s := by
  unfold Session.step leaves
  cases takeStep (perform maxDepth) maxJobs step s <;> rfl

/-- The session after some steps. -/
def after (s : Session) (steps : List Step) : Session :=
  steps.foldl (fun s step => (s.step step).2) s

/-- Whether none of the steps nests its calls beyond the bound. -/
def isShallow (s : Session) : List Step → Bool
  | [] => true
  | step :: steps =>
    (takeStep (perform maxDepth) maxJobs step).isFine s && (s.step step).2.isShallow steps

/-- Steps that do not nest their calls beyond the bound are a run in which nobody but the
pacer changes its notes. -/
theorem unpaced_of_steps (steps : List Step) (h : ∀ step ∈ steps, StepWithin A step)
    (hd : s.isShallow steps = true) : Unpaced A s (s.after steps) := by
  induction steps generalizing s with
  | nil => exact refl_of (Unpaced A) s
  | cons step steps ih =>
    simp only [isShallow, Bool.and_eq_true] at hd
    have hs : Unpaced A s (s.step step).2 := by
      rw [step_eq_leaves]
      exact leads_takeStep maxDepth maxJobs (h step List.mem_cons_self) s _ (ends_leaves hd.1)
    exact trans_of (Unpaced A) hs (ih (fun x hx => h x (List.mem_cons_of_mem _ hx)) hd.2)

theorem run_of_steps (steps : List Step) (h : ∀ step ∈ steps, StepWithin A step)
    (hd : s.isShallow steps = true) : Run A s (s.after steps) :=
  (unpaced_of_steps steps h hd).run

end Session
end DiagnosticWatch
