/-
# What state listeners are told

A listener may ask for a step in the middle of the round of calls that tells of
another one. The new round is over before the old one goes on, so that the
listeners behind hear of the inner step first. Still, the steps that are made
lead from phase to phase, and a listener that stays registered is told of each
of them once. It is told of them in the order in which they are made, unless one
is made in the middle of a call of a listener registered before it.

Serial numbers are given in the order of registration.

Key definitions: `Event.step?`, `Event.told?`, `Walk`, `callersAfter`, `Undisturbed`,
`Lifecycle.Alone.Run`, `Lifecycle.Alone.Heard`.
Key theorems: `Lifecycle.Alone.Heard.append`, `Lifecycle.Alone.heard_of_round`,
`Lifecycle.Alone.listeners_are_told_of_every_step`.
-/
import DiagnosticWatch.Lifecycle
import DiagnosticWatch.Proofs.Act
import Mathlib.Data.List.Chain
import Mathlib.Logic.Relation

namespace DiagnosticWatch

/-- The step between phases that an event is. -/
def Event.step? : Event → Option (Phase × Phase)
  | .moved old new => some (old, new)
  | _ => none

/-- The step that a listener is told of. -/
def Event.told? (serial : Nat) : Event → Option (Phase × Phase)
  | .called k old new => if k = serial then some (old, new) else none
  | _ => none

/-- The steps that were made. -/
def stepsOf (events : List Event) : List (Phase × Phase) :=
  events.filterMap Event.step?

/-- The steps that a listener was told of. -/
def toldOf (serial : Nat) (events : List Event) : List (Phase × Phase) :=
  events.filterMap (Event.told? serial)

/-- The steps lead from one phase to the other, each from where the one before it ended. -/
def Walk : Phase → List (Phase × Phase) → Phase → Prop
  | source, [], target => source = target
  | source, (old, new) :: steps, target => source = old ∧ Walk new steps target

/-- The listeners that have been called and have not returned after some events, the innermost
first; these had not before. -/
def callersAfter (inside : List Nat) : List Event → List Nat
  | [] => inside
  | .called k _ _ :: events => callersAfter (k :: inside) events
  | .returned _ :: events => callersAfter inside.tail events
  | _ :: events => callersAfter inside events

/-- No step is made in the middle of a call of a listener registered before this one. -/
def Undisturbed (serial : Nat) (inside : List Nat) (events : List Event) : Prop :=
  ∀ before old new after, events = before ++ .moved old new :: after →
    ∀ k ∈ callersAfter inside before, serial ≤ k

variable {k : Nat} {inside : List Nat} {events more : List Event} {p q r : Phase}
  {steps steps' : List (Phase × Phase)}

theorem Walk.append (h : Walk p steps q) (h' : Walk q steps' r) : Walk p (steps ++ steps') r := by
  induction steps generalizing p with
  | nil =>
    cases h
    exact h'
  | cons step steps ih => exact ⟨h.1, ih h.2⟩

theorem callersAfter_append (inside : List Nat) (events more : List Event) :
    callersAfter inside (events ++ more) = callersAfter (callersAfter inside events) more := by
  induction events generalizing inside with
  | nil => rfl
  | cons e events ih => cases e <;> exact ih _

theorem Undisturbed.left (h : Undisturbed k inside (events ++ more)) :
    Undisturbed k inside events := fun before old new after hs =>
  h before old new (after ++ more) (by rw [hs, List.append_assoc, List.cons_append])

theorem Undisturbed.right (h : Undisturbed k inside (events ++ more)) :
    Undisturbed k (callersAfter inside events) more := fun before old new after hs => by
  have h := h (events ++ before) old new after (by rw [hs, List.append_assoc])
  rwa [callersAfter_append] at h

theorem toldOf_append (k : Nat) (events more : List Event) :
    toldOf k (events ++ more) = toldOf k events ++ toldOf k more := List.filterMap_append

theorem stepsOf_append (events more : List Event) :
    stepsOf (events ++ more) = stepsOf events ++ stepsOf more := List.filterMap_append

namespace Lifecycle
namespace Alone

open Act

/-- Some requests take the world `w` to `w'`, one after the other. -/
def Run : Alone → Alone → Prop :=
  Relation.ReflTransGen fun w w' => ∃ depth request, (perform depth request).Ends w w'

section Preorder

variable {R : Alone → Alone → Prop} [IsPreorder Alone R]
  (hanswer : ∀ ask, (∀ q w, Leads R (ask q) w) → ∀ q w, Leads R (answer ask q) w)
include hanswer

/-- A relation that an answer keeps if the requests of listeners do, is kept however deep they nest
them. -/
theorem leads_perform (depth : Nat) (q : Request) (w : Alone) : Leads R (perform depth q) w := by
  induction depth generalizing q w with
  | zero => exact Leads.throw .tooDeep w
  | succ depth ih => exact hanswer (perform depth) ih q w

/-- So it is in a whole run. -/
theorem Run.rel {w w' : Alone} (h : Run w w') : R w w' := by
  induction h with
  | refl => exact refl_of R w
  | tail _ hq ih =>
    obtain ⟨depth, q, hq⟩ := hq
    exact trans_of R ih (leads_perform hanswer depth q _ _ hq)

end Preorder

/-- The serial numbers of the registered listeners. -/
def serials (w : Alone) : List Nat :=
  w.life.listeners.map (·.serial)

/-- Serial numbers are given in order. -/
structure Numbered (w : Alone) : Prop where
  sorted : w.serials.Pairwise (· < ·)
  below : ∀ k ∈ w.serials, k < w.known.length

variable {w w' u : Alone} {owed owed' : Nat → List (Phase × Phase)}
  {ask : Request → Act Alone Answer}

/-- These events lead from the world `w` to `w'`. A listener that is owed some steps in `w` is told
of them and of the steps made meanwhile, each once, and in this order unless a step is made in the
middle of a call of an earlier listener. -/
structure Heard (owed : Nat → List (Phase × Phase)) (w : Alone) (events : List Event)
    (w' : Alone) : Prop where
  numbered : w'.Numbered
  trace : w'.trace.events = w.trace.events ++ events
  walk : Walk w.life.phase (stepsOf events) w'.life.phase
  returned : ∀ inside, callersAfter inside events = inside
  known : w.known.length ≤ w'.known.length
  stays : ∀ k < w.known.length, k ∈ w'.serials → k ∈ w.serials
  callers : ∀ k old new, .called k old new ∈ events →
    owed k ≠ [] ∨ k ∈ w.serials ∨ w.known.length ≤ k
  /-- In the middle of a call of an earlier listener, nothing happens to an undisturbed one. -/
  quiet : ∀ k inside, (∃ j ∈ inside, j < k) → Undisturbed k inside events → stepsOf events = []
  all : ∀ k ∈ w.serials, k ∈ w'.serials → (toldOf k events).Perm (owed k ++ stepsOf events)
  inOrder : ∀ k ∈ w.serials, k ∈ w'.serials → ∀ inside, Undisturbed k inside events →
    toldOf k events = owed k ++ stepsOf events

/-- Nobody is owed a step. -/
def nothingOwed : Nat → List (Phase × Phase) := fun _ => []

/-- These listeners have to be told of a step yet. -/
def owedTo (step : Phase × Phase) (listeners : List (Listener Request)) (k : Nat) :
    List (Phase × Phase) :=
  if k ∈ listeners.map (·.serial) then [step] else []

theorem owedTo_of_mem {step : Phase × Phase} {ls : List (Listener Request)}
    (h : k ∈ ls.map (·.serial)) : owedTo step ls k = [step] := if_pos h

theorem mem_of_owedTo {step : Phase × Phase} {ls : List (Listener Request)}
    (h : owedTo step ls k ≠ []) : k ∈ ls.map (·.serial) :=
  Decidable.byContradiction fun hk => h (if_neg hk)

/-- What is heard first and what is heard then, unless the second part owes something to a listener
that may hear of steps out of order in the first. -/
theorem Heard.append (hw : w.Numbered) (h : Heard owed w events u) (h' : Heard owed' u more w')
    (hq : ∀ k inside, owed' k ≠ [] → Undisturbed k inside events → stepsOf events = []) :
    Heard (fun k => owed k ++ owed' k) w (events ++ more) w' where
  numbered := h'.numbered
  trace := by rw [h'.trace, h.trace, List.append_assoc]
  walk := by
    rw [stepsOf_append]
    exact h.walk.append h'.walk
  returned inside := by rw [callersAfter_append, h.returned, h'.returned]
  known := Nat.le_trans h.known h'.known
  stays k hk hmem := h.stays k hk (h'.stays k (Nat.lt_of_lt_of_le hk h.known) hmem)
  callers k old new hmem := by
    rcases List.mem_append.mp hmem with hmem | hmem
    · rcases h.callers k old new hmem with ho | hk
      · exact .inl (by simp [ho])
      · exact .inr hk
    · rcases h'.callers k old new hmem with ho | hk | hk
      · exact .inl (by simp [ho])
      · rcases Nat.lt_or_ge k w.known.length with hlt | hge
        · exact .inr (.inl (h.stays k hlt hk))
        · exact .inr (.inr hge)
      · exact .inr (.inr (Nat.le_trans h.known hk))
  quiet k inside hj hu := by
    have hm := hu.right
    rw [h.returned] at hm
    rw [stepsOf_append, h.quiet k inside hj hu.left, h'.quiet k inside hj hm]
    rfl
  all k hk hk' := by
    have hu : k ∈ u.serials := h'.stays k (Nat.lt_of_lt_of_le (hw.below k hk) h.known) hk'
    rw [toldOf_append, stepsOf_append, List.append_assoc]
    refine ((h.all k hk hu).append (h'.all k hu hk')).trans ?_
    rw [List.append_assoc]
    refine List.Perm.append_left _ ?_
    rw [← List.append_assoc, ← List.append_assoc]
    exact List.perm_append_comm.append_right _
  inOrder k hk hk' inside hun := by
    have hu : k ∈ u.serials := h'.stays k (Nat.lt_of_lt_of_le (hw.below k hk) h.known) hk'
    have hm := hun.right
    rw [h.returned] at hm
    rw [toldOf_append, stepsOf_append, h.inOrder k hk hu inside hun.left,
      h'.inOrder k hu hk' inside hm]
    by_cases ho : owed' k = []
    · simp [ho]
    · simp [hq k inside ho hun.left]

/-- Something is told that is no step and no call. -/
theorem heard_of_event {e : Event} (hw : w.Numbered) (hs : e.step? = none)
    (hc : ∀ k, e.told? k = none) (hr : ∀ inside, callersAfter inside [e] = inside)
    (hcall : ∀ k old new, e ≠ .called k old new) :
    Heard nothingOwed w [e] { w with trace := w.trace.record e } where
  numbered := ⟨hw.sorted, hw.below⟩
  trace := Trace.events_record e _
  walk := by
    rw [stepsOf, List.filterMap_cons_none hs]
    rfl
  returned := hr
  known := Nat.le_refl _
  stays _ _ h := h
  callers k old new h := absurd (List.mem_singleton.mp h).symm (hcall k old new)
  quiet _ _ _ _ := List.filterMap_cons_none hs
  all k _ _ := by
    rw [toldOf, stepsOf, List.filterMap_cons_none (hc k), List.filterMap_cons_none hs]
    exact .nil
  inOrder k _ _ _ _ := by
    rw [toldOf, stepsOf, List.filterMap_cons_none (hc k), List.filterMap_cons_none hs]
    rfl

/-- The listeners change, and nothing is told. -/
theorem heard_of_still (hw' : w'.Numbered) (hp : w'.life.phase = w.life.phase)
    (ht : w'.trace = w.trace) (hk : w.known.length ≤ w'.known.length)
    (hs : ∀ k < w.known.length, k ∈ w'.serials → k ∈ w.serials) : Heard nothingOwed w [] w' where
  numbered := hw'
  trace := by rw [ht, List.append_nil]
  walk := hp.symm
  returned _ := rfl
  known := hk
  stays := hs
  callers _ _ _ h := nomatch h
  quiet _ _ _ _ := rfl
  all _ _ _ := .nil
  inOrder _ _ _ _ _ := rfl

/-! ### Requests -/

/-- From numbered listeners on, what is told in between is heard. -/
def Hears (w w' : Alone) : Prop :=
  w.Numbered → ∃ events, Heard nothingOwed w events w'

instance : IsPreorder Alone Hears where
  refl w hw := ⟨[], heard_of_still hw rfl rfl (Nat.le_refl _) fun _ _ h => h⟩
  trans w u w' h h' hw := by
    obtain ⟨events, hu⟩ := h hw
    obtain ⟨more, hw'⟩ := h' hu.numbered
    exact ⟨events ++ more, hu.append hw hw' fun k inside ho => absurd rfl ho⟩

/-- Something is told that is no step and no call. -/
theorem hears_of_event (w : Alone) {e : Event} (hs : e.step? = none) (hc : ∀ k, e.told? k = none)
    (hr : ∀ inside, callersAfter inside [e] = inside) (hcall : ∀ k old new, e ≠ .called k old new) :
    Hears w { w with trace := w.trace.record e } :=
  fun hw => ⟨[e], heard_of_event hw hs hc hr hcall⟩

theorem Undisturbed.tail {e : Event} (h : Undisturbed k inside (e :: events)) :
    Undisturbed k (callersAfter inside [e]) events :=
  Undisturbed.right (show Undisturbed k inside ([e] ++ events) from h)

theorem hears_perform (hask : ∀ q w, Leads Hears (ask q) w) (l : Listener Request) (w : Alone) :
    Leads Hears (l.perform Request.name ask) w :=
  leads_listener (fun _ _ w => hears_of_event w rfl (fun _ => rfl) (fun _ => rfl) nofun) l w hask

/-- What happens in a call of a listener: it is called, and these events come about until it has
returned. -/
def callOf (l : Listener Request) (old new : Phase) (events : List Event) : List Event :=
  .called l.serial old new :: .state l.name old new :: (events ++ [.returned l.serial])

theorem stepsOf_callOf (l : Listener Request) (old new : Phase) (events : List Event) :
    stepsOf (callOf l old new events) = stepsOf events := by
  show stepsOf (events ++ [.returned l.serial]) = _
  rw [stepsOf_append]
  exact List.append_nil _

theorem toldOf_callOf (l : Listener Request) (old new : Phase) (events : List Event) (k : Nat) :
    toldOf k (callOf l old new events) = owedTo (old, new) [l] k ++ toldOf k events := by
  have hrest : toldOf k (.state l.name old new :: (events ++ [.returned l.serial])) =
      toldOf k events := by
    show toldOf k (events ++ [.returned l.serial]) = _
    rw [toldOf_append]
    exact List.append_nil _
  by_cases hk : k = l.serial
  · subst hk
    have hself : Event.told? l.serial (.called l.serial old new) = some (old, new) := if_pos rfl
    rw [callOf, toldOf, List.filterMap_cons_some hself, ← toldOf, hrest]
    simp [owedTo]
  · have hother : Event.told? k (.called l.serial old new) = none := if_neg (Ne.symm hk)
    rw [callOf, toldOf, List.filterMap_cons_none hother, ← toldOf, hrest]
    simp [owedTo, hk]

/-- A listener that is called hears of the step first, and of all that happens then. Earlier than
that of others nothing happens that leaves a later listener undisturbed. -/
theorem heard_of_call (hask : ∀ q w, Leads Hears (ask q) w) (l : Listener Request) (old new : Phase)
    (hw : w.Numbered) (h : (call ask l old new).Ends w w') :
    ∃ events, Heard (owedTo (old, new) [l]) w events w' ∧
      ∀ k inside, l.serial < k → Undisturbed k inside events → stepsOf events = [] := by
  obtain ⟨v, hv, rfl⟩ := ends_ensuring (show
    ((l.perform Request.name ask).ensuring _).Ends
      { w with
        trace := (w.trace.record (.called l.serial old new)).record (.state l.name old new) } w'
    from h)
  obtain ⟨events, hn⟩ := hears_perform hask l _ v hv ⟨hw.sorted, hw.below⟩
  have hin {k : Nat} {inside : List Nat} (hu : Undisturbed k inside (callOf l old new events)) :
      Undisturbed k (l.serial :: inside) events :=
    Undisturbed.left (Undisturbed.tail (Undisturbed.tail hu))
  refine ⟨callOf l old new events, ?_, fun k inside hlt hu => ?_⟩
  · exact {
      numbered := ⟨hn.numbered.sorted, hn.numbered.below⟩
      trace := by
        show (v.trace.record _).events = _
        rw [Trace.events_record, hn.trace]
        simp [Trace.events_record, callOf]
      walk := by
        rw [stepsOf_callOf]
        exact hn.walk
      returned := fun inside => by
        show callersAfter (l.serial :: inside) (events ++ [.returned l.serial]) = inside
        rw [callersAfter_append, hn.returned]
        rfl
      known := hn.known
      stays := hn.stays
      callers := fun k old' new' hmem => by
        simp only [callOf, List.mem_cons, List.mem_append, List.not_mem_nil, or_false] at hmem
        rcases hmem with hmem | hmem | hmem | hmem
        · cases hmem
          exact .inl (by simp [owedTo])
        · cases hmem
        · exact .inr ((hn.callers k old' new' hmem).resolve_left fun ho => ho rfl)
        · cases hmem
      quiet := fun k inside ⟨j, hj, hlt⟩ hu => by
        rw [stepsOf_callOf]
        exact hn.quiet k _ ⟨j, List.mem_cons_of_mem _ hj, hlt⟩ (hin hu)
      all := fun k hk hk' => by
        rw [toldOf_callOf, stepsOf_callOf]
        exact (hn.all k hk hk').append_left _
      inOrder := fun k hk hk' inside hu => by
        rw [toldOf_callOf, stepsOf_callOf, hn.inOrder k hk hk' _ (hin hu)]
        rfl }
  · rw [stepsOf_callOf]
    exact hn.quiet k _ ⟨l.serial, List.mem_cons_self, hlt⟩ (hin hu)

/-- A call that fails is logged. -/
theorem heard_of_rescued (hask : ∀ q w, Leads Hears (ask q) w) (l : Listener Request)
    (old new : Phase) (complaint : String) (hw : w.Numbered)
    (h : ((call ask l old new).rescue Fault.isOrdinary fun _ => log .error complaint).Ends w w') :
    ∃ events, Heard (owedTo (old, new) [l]) w events w' ∧
      ∀ k inside, l.serial < k → Undisturbed k inside events → stepsOf events = [] := by
  rcases ends_rescue_cases h with h | ⟨e, v, he, hv, hlog⟩ | ⟨e, he, hc, -⟩
  · exact heard_of_call hask l old new hw (.inl h)
  · obtain ⟨events, hfirst, hquiet⟩ := heard_of_call hask l old new hw (.inr ⟨e, he, hv⟩)
    cases (ends_ok_iff (tell_apply _ v)).mp hlog
    have hlog := heard_of_event (e := .log .error complaint) hfirst.numbered rfl (fun _ => rfl)
      (fun _ => rfl) nofun
    refine ⟨events ++ [.log .error complaint], ?_, fun k inside hlt hu => ?_⟩
    · have hboth := hfirst.append hw hlog fun _ _ ho => absurd rfl ho
      simp only [nothingOwed, List.append_nil] at hboth
      exact hboth
    · rw [stepsOf_append, hquiet k inside hlt hu.left]
      rfl
  · rw [he] at hc
    cases hc

theorem owedTo_cons {step : Phase × Phase} {l : Listener Request} {ls : List (Listener Request)}
    (hl : l.serial ∉ ls.map (·.serial)) :
    owedTo step (l :: ls) = fun k => owedTo step [l] k ++ owedTo step ls k := by
  funext k
  by_cases hk : k = l.serial
  · subst hk
    rw [owedTo, owedTo, owedTo, if_neg hl]
    simp
  · simp [owedTo, hk]

/-- A round of calls tells these listeners of a step. -/
theorem heard_of_round (hask : ∀ q w, Leads Hears (ask q) w) (old new : Phase) (complaint : String)
    (ls : List (Listener Request)) (hls : (ls.map (·.serial)).Pairwise (· < ·)) {w w' : Alone}
    (hw : w.Numbered) (h : (announce (fun l => call ask l old new) complaint ls).Ends w w') :
    ∃ events, Heard (owedTo (old, new) ls) w events w' := by
  induction ls generalizing w with
  | nil =>
    cases (ends_ok_iff (pure_apply () w)).mp h
    exact ⟨[], heard_of_still hw rfl rfl (Nat.le_refl _) fun _ _ h => h⟩
  | cons l ls ih =>
    obtain ⟨hl, hls⟩ := List.pairwise_cons.mp hls
    rcases ends_bind_cases h with ⟨_, v, hv, hrest⟩ | ⟨e, he, hv⟩
    · obtain ⟨events, hfirst, hquiet⟩ := heard_of_rescued hask l old new complaint hw (ends_of_ok hv)
      obtain ⟨more, hrest⟩ := ih hls hfirst.numbered hrest
      refine ⟨events ++ more, ?_⟩
      rw [owedTo_cons fun hmem => Nat.lt_irrefl _ (hl _ hmem)]
      exact hfirst.append hw hrest fun k inside ho => hquiet k inside (hl k (mem_of_owedTo ho))
    · have hone : announce (fun l => call ask l old new) complaint [l] w = .error e w' :=
        bind_of_error hv
      rw [announce_error [l] w hone] at he
      cases he

/-- The world in which a step is made and nobody is told of it yet. -/
def stepped (w : Alone) (target : Phase) : Alone :=
  { w with
    life := { w.life with phase := target }
    trace := w.trace.record (.moved w.life.phase target) }

theorem events_stepped (target : Phase) :
    (w.stepped target).trace.events = w.trace.events ++ [.moved w.life.phase target] :=
  Trace.events_record _ _

/-- A step that the phases have is made, and then everybody is told. -/
theorem transition_of {call : Listener Request → Phase → Phase → Act Alone Unit} {target : Phase}
    (h : w.life.phase.canBecome target = true) :
    transition call target w =
      announce (fun l => call l w.life.phase target)
        s!"State listener failed on {w.life.phase.name} -> {target.name}" w.life.listeners
        (w.stepped target) := by
  unfold transition
  rw [get_bind_apply, if_pos (show (Holds.part w : Lifecycle Request).phase.canBecome target = true from h)]
  rfl

/-- A step that the phases lack is refused. -/
theorem transition_of_not {call : Listener Request → Phase → Phase → Act Alone Unit}
    {target : Phase} (h : w.life.phase.canBecome target = false) :
    transition call target w = .error (.badTransition w.life.phase target)
      { w with trace := w.trace.record (.refused w.life.phase target) } := by
  unfold transition
  rw [get_bind_apply, if_neg (ne_true_of_eq_false
    (show (Holds.part w : Lifecycle Request).phase.canBecome target = false from h))]
  rfl

/-- A step is made, and everybody is told. -/
theorem Heard.moved {target : Phase}
    (h : Heard (owedTo (w.life.phase, target) w.life.listeners) (w.stepped target) events w') :
    Heard nothingOwed w (.moved w.life.phase target :: events) w' where
  numbered := h.numbered
  trace := by
    rw [h.trace, events_stepped, List.append_assoc]
    rfl
  walk := ⟨rfl, h.walk⟩
  returned := h.returned
  known := h.known
  stays := h.stays
  callers k old new hmem := by
    rcases List.mem_cons.mp hmem with hmem | hmem
    · cases hmem
    · rcases h.callers k old new hmem with ho | hk
      · exact .inr (.inl (mem_of_owedTo ho))
      · exact .inr hk
  quiet k inside hj hu := by
    obtain ⟨j, hj, hlt⟩ := hj
    exact absurd (hu [] _ _ _ rfl j hj) (Nat.not_le.mpr hlt)
  all k hk hk' := by
    have ha := h.all k hk hk'
    rw [owedTo_of_mem hk] at ha
    exact ha
  inOrder k hk hk' inside hu := by
    have ho := h.inOrder k hk hk' inside (Undisturbed.tail hu)
    rw [owedTo_of_mem hk] at ho
    exact ho

theorem leads_transition (hask : ∀ q w, Leads Hears (ask q) w) (target : Phase) (w : Alone) :
    Leads Hears (transition (ρ := Request) (call ask) target) w := by
  cases hc : w.life.phase.canBecome target with
  | true =>
    intro w' h hw
    unfold Ends at h
    rw [transition_of hc] at h
    obtain ⟨events, h⟩ := heard_of_round hask _ _ _ w.life.listeners hw.sorted
      (w := w.stepped target) ⟨hw.sorted, hw.below⟩ h
    exact ⟨_, h.moved⟩
  | false =>
    refine Leads.after (y := throw (.badTransition w.life.phase target))
      (hears_of_event w (e := .refused w.life.phase target) rfl (fun _ => rfl) (fun _ => rfl) nofun)
      (Leads.throw _ _) ?_
    exact transition_of_not hc

theorem hears_of_listen (name : String) (script : Trace → List (Reaction Request)) (w : Alone) :
    Hears w { w with
      known := ⟨w.known.length, name, script, none⟩ :: w.known
      life := { w.life with
        listeners := w.life.listeners ++ [⟨w.known.length, name, script, none⟩] } } := by
  intro hw
  refine ⟨[], heard_of_still ⟨?_, fun k hk => ?_⟩ rfl rfl (Nat.le_succ _) fun k hlt hk => ?_⟩
  · rw [serials, List.map_append, List.pairwise_append]
    exact ⟨hw.sorted, List.pairwise_singleton _ _, fun k hk k' hk' => by
      cases List.mem_singleton.mp hk'
      exact hw.below k hk⟩
  · rw [serials, List.map_append, List.mem_append] at hk
    rcases hk with hk | hk
    · exact Nat.lt_succ_of_lt (hw.below k hk)
    · cases List.mem_singleton.mp hk
      exact Nat.lt_succ_self _
  · rw [serials, List.map_append, List.mem_append] at hk
    rcases hk with hk | hk
    · exact hk
    · cases List.mem_singleton.mp hk
      exact absurd hlt (Nat.lt_irrefl _)

theorem hears_of_remove (serial : Nat) (w : Alone) :
    Hears w { w with life := { w.life with
      listeners := Listener.remove serial w.life.listeners } } := by
  have hsub : ((Listener.remove serial w.life.listeners).map (·.serial)).Sublist w.serials :=
    List.eraseP_sublist.map _
  exact fun hw => ⟨[], heard_of_still
    ⟨hw.sorted.sublist hsub, fun k hk => hw.below k (hsub.subset hk)⟩
    rfl rfl (Nat.le_refl _) fun k _ hk => hsub.subset hk⟩

theorem leads_answer (hask : ∀ q w, Leads Hears (ask q) w) (q : Request) (w : Alone) :
    Leads Hears (answer ask q) w := by
  cases q with
  | transition target =>
    refine Leads.bind (leads_transition hask target w) fun _ v _ _ => ?_
    exact Leads.step (tell_apply _ v) (hears_of_event v rfl (fun _ => rfl) (fun _ => rfl) nofun)
      (Leads.pure _ _)
  | canBecome target => exact leads_of_ok rfl (refl_of Hears w)
  | describe => exact leads_of_ok rfl (refl_of Hears w)
  | represent => exact leads_of_ok rfl (refl_of Hears w)
  | listen name script =>
    unfold answer
    rw [leads_get_bind]
    refine Leads.step (v := { w with
        known := ⟨w.known.length, name, script, none⟩ :: w.known
        life := { w.life with
          listeners := w.life.listeners ++ [⟨w.known.length, name, script, none⟩] } })
      rfl (hears_of_listen name script w) ?_
    exact leads_of_ok rfl (hears_of_event _ rfl (fun _ => rfl) (fun _ => rfl) nofun)
  | remove name =>
    unfold answer
    rw [leads_get_bind]
    cases Listener.latest? w.known name with
    | some l =>
      refine Leads.step (v := { w with life := { w.life with
        listeners := Listener.remove l.serial w.life.listeners } }) rfl (hears_of_remove l.serial w) ?_
      exact leads_of_ok rfl (hears_of_event _ rfl (fun _ => rfl) (fun _ => rfl) nofun)
    | none => exact leads_of_ok rfl (refl_of Hears w)

/-! ### Runs -/

/-- The world after some requests whose calls nest no more than twice. -/
def asked (w : Alone) (requests : List Request) : Alone :=
  leavesAll (perform 3) requests w

theorem run_asked {requests : List Request} {w : Alone}
    (h : isFineAll (perform 3) requests w = true) : Run w (w.asked requests) :=
  Relation.ReflTransGen.mono (fun _ _ ⟨q, hq⟩ => ⟨3, q, hq⟩) _ _ (ends_leavesAll h)

end Alone
end Lifecycle
end DiagnosticWatch
