/-
# The law of the window

A signal on its own is asked for marks, resets, polls and signals at any times,
by anybody and by its listeners in the middle of a delivery. What a poll does
is a matter of what happened before it: it fires if a change was marked since
the latest reset or start of a signal, and the first such mark is at least the
window ago. Everything else follows from that: later marks of a burst neither
delay nor multiply the signal, and a mark that is made during a delivery waits
for the next one.

Key definitions: `Event.clears`, `firstMark?`, `Obeys`, `ChangeSignal.Alone.Run`,
`ChangeSignal.Alone.Fair`.
Key theorems: `ChangeSignal.Alone.leads_perform`, `ChangeSignal.Alone.fair_of_run`,
`ChangeSignal.Alone.polls_keep_the_window`.
-/
import DiagnosticWatch.ChangeSignal
import DiagnosticWatch.Proofs.Act
import DiagnosticWatch.Proofs.Number.Elapsed
import Mathlib.Data.List.DropRight
import Mathlib.Logic.Relation

namespace DiagnosticWatch

/-- Whether no change is marked after an event: a reset, or the start of a signal. -/
def Event.clears : Event → Bool
  | .unmarked | .signal _ => true
  | _ => false

/-- The time of a mark. -/
def Event.markTime? : Event → Option Float
  | .marked time => some time
  | _ => none

/-- The time of a mark or a poll. -/
def Event.readTime? : Event → Option Float
  | .marked time | .polled time _ => some time
  | _ => none

/-- Whether an event is a poll that fires. -/
def Event.isFiring : Event → Bool
  | .polled _ fires => fires
  | _ => false

/-- Whether an event is a mark. -/
def Event.isMark (e : Event) : Bool := e.markTime?.isSome

/-- Whether an event says nothing of marks. -/
def Event.isIdle : Event → Bool
  | .marked _ | .unmarked | .signal _ | .polled .. | .delivered _ => false
  | _ => true

/-- The time of the first mark since the latest reset or start of a signal. -/
def firstMark? (events : List Event) : Option Float :=
  ((events.rtakeWhile fun e => !e.clears).filterMap Event.markTime?).head?

/-- Between what comes before and after it, a poll fires if the time of the first mark has come,
and begins a signal at once then; and a delivery ends with a change marked if one was marked since
it began. -/
structure Obeys (window : Number) (before : List Event) (e : Event) (after : List Event) : Prop where
  polled : ∀ now fires, e = .polled now fires →
    (fires = true ↔ ∃ m, firstMark? before = some m ∧ window.above (now - m) = false)
  fired : ∀ now, e = .polled now true → ∃ stored rest, after = .signal stored :: rest
  delivered : ∀ pending, e = .delivered pending → pending = (firstMark? before).isSome

/-- Every event is in its place. -/
def Lawful (window : Number) (events : List Event) : Prop :=
  ∀ before e after, events = before ++ e :: after → Obeys window before e after

variable {window : Number} {before after events more : List Event} {e : Event}

theorem firstMark?_snoc (events : List Event) (e : Event) :
    firstMark? (events ++ [e]) = if e.clears then none else (firstMark? events).or e.markTime? := by
  unfold firstMark?
  rw [List.rtakeWhile_concat]
  cases e.clears with
  | true => rfl
  | false =>
    simp only [Bool.not_false, ↓reduceIte, List.filterMap_append, List.head?_append,
      Bool.false_eq_true]
    cases hm : e.markTime? <;> simp [hm]

theorem idle_cases (he : e.isIdle = true) :
    e.clears = false ∧ e.markTime? = none ∧ e.isFiring = false := by
  cases e <;> first | exact ⟨rfl, rfl, rfl⟩ | cases he

theorem firstMark?_of_idle (events : List Event) (he : e.isIdle = true) :
    firstMark? (events ++ [e]) = firstMark? events := by
  obtain ⟨hc, hm, -⟩ := idle_cases he
  rw [firstMark?_snoc, hc, hm]
  exact Option.or_none

theorem mem_of_firstMark? {m : Float} (h : firstMark? events = some m) : .marked m ∈ events := by
  have hmem := List.mem_of_mem_head? (Option.mem_def.mpr h)
  obtain ⟨e, he, hm⟩ := List.mem_filterMap.mp hmem
  cases e <;> cases hm
  exact (List.rtakeWhile_suffix _ _).subset he

/-- A mark that nothing cleared is the first one, or an earlier one is. -/
theorem firstMark?_of_marked (before : List Event) (m : Float) (after : List Event)
    (h : ∀ e ∈ after, e.clears = false) : ∃ first,
      firstMark? (before ++ .marked m :: after) = some first ∧
        (first = m ∨ .marked first ∈ before) := by
  induction after using List.reverseRecOn with
  | nil =>
    rw [firstMark?_snoc]
    cases hf : firstMark? before with
    | some first => exact ⟨first, rfl, .inr (mem_of_firstMark? hf)⟩
    | none => exact ⟨m, rfl, .inl rfl⟩
  | append_singleton after e ih =>
    obtain ⟨first, hf, hor⟩ := ih fun e' he => h e' (List.mem_append_left _ he)
    refine ⟨first, ?_, hor⟩
    rw [← List.cons_append, ← List.append_assoc, firstMark?_snoc, hf,
      h e (List.mem_append_right _ List.mem_cons_self)]
    rfl

/-- The first mark comes after whatever clears. -/
theorem marked_mem_of_firstMark? {m : Float} (hc : e.clears = true)
    (h : firstMark? (before ++ e :: after) = some m) : .marked m ∈ after := by
  induction after using List.reverseRecOn with
  | nil =>
    rw [firstMark?_snoc, hc] at h
    cases h
  | append_singleton after e' ih =>
    rw [← List.cons_append, ← List.append_assoc, firstMark?_snoc] at h
    split at h
    · cases h
    · cases hf : firstMark? (before ++ e :: after) with
      | some first =>
        rw [hf] at h
        obtain rfl : first = m := Option.some_inj.mp h
        exact List.mem_append_left _ (ih hf)
      | none =>
        rw [hf] at h
        cases e' <;> cases h
        exact List.mem_append_right _ List.mem_cons_self

/-- An event stays in its place when more happens. -/
theorem Obeys.append (h : Obeys window before e after) : Obeys window before e (after ++ more) where
  polled := h.polled
  fired now he := by
    obtain ⟨stored, rest, rfl⟩ := h.fired now he
    exact ⟨stored, rest ++ more, rfl⟩
  delivered := h.delivered

theorem obeys_of_isIdle (he : e.isIdle = true) : Obeys window before e after where
  polled _ _ h := by subst h; cases he
  fired _ h := by subst h; cases he
  delivered _ h := by subst h; cases he

/-- The readings of the clock never go back. -/
def Forward (events : List Event) : Prop :=
  (events.filterMap Event.readTime?).Pairwise (· ≤ ·)

/-- What is read later is no earlier. -/
theorem Forward.le {x y : Float} {d : Event} (h : Forward events)
    (hs : events = before ++ e :: after) (hx : e.readTime? = some x) (hd : d ∈ after)
    (hy : d.readTime? = some y) : x ≤ y := by
  unfold Forward at h
  rw [hs, List.filterMap_append, List.filterMap_cons_some hx] at h
  have hp := (List.pairwise_append.mp h).2.1
  exact (List.pairwise_cons.mp hp).1 y (List.mem_filterMap.mpr ⟨d, hd, hy⟩)

theorem lawful_nil : Lawful window [] := by
  intro before e after h
  cases before <;> cases h

theorem Lawful.append (h : Lawful window events)
    (hm : ∀ l e r, more = l ++ e :: r → Obeys window (events ++ l) e r) :
    Lawful window (events ++ more) := by
  intro before e after hsplit
  rcases List.append_eq_append_iff.mp hsplit with ⟨l, rfl, hl⟩ | ⟨l, rfl, hl⟩
  · exact hm l e after hl
  · cases l with
    | nil =>
      rw [List.append_nil] at hm
      simpa using hm [] e after hl.symm
    | cons e' l =>
      rw [List.cons_append, List.cons.injEq] at hl
      obtain ⟨rfl, rfl⟩ := hl
      exact (h before e l rfl).append

theorem Lawful.snoc (h : Lawful window events) (he : Obeys window events e []) :
    Lawful window (events ++ [e]) := by
  refine h.append fun l e' r hl => ?_
  obtain ⟨rfl, rfl, rfl⟩ : l = [] ∧ e' = e ∧ r = [] := by
    cases l <;> simp_all
  rwa [List.append_nil]

namespace ChangeSignal
namespace Alone

open Act

/-! ### Moves and runs -/

/-- What happens to a signal from one point to the next: a request is answered, or the clock is
set. -/
inductive Move where
  | ask (request : Request)
  | clock (now : Float)

/-- The move takes the world `w` to `w'`. -/
def Moves : Move → Alone → Alone → Prop
  | .ask request, w, w' => ∃ depth, (perform depth request).Ends w w'
  | .clock now, w, w' => w' = { w with now }

/-- Some moves take `w` to `w'`, one after the other. -/
def Run : Alone → Alone → Prop :=
  Relation.ReflTransGen fun w w' => ∃ move, Moves move w w'

section Preorder

variable {R : Alone → Alone → Prop} [IsPreorder Alone R]
  (hanswer : ∀ ask, (∀ q w, Leads R (ask q) w) → ∀ q w, Leads R (answer ask q) w)
include hanswer

/-- A relation that an answer keeps if the requests of listeners do, is kept however deep they nest
them. -/
theorem leads_perform (depth : Nat) (q : Request) (w : Alone) : Leads R (perform depth q) w := by
  induction depth generalizing q w with
  | zero => exact Leads.throw .tooDeep w
  | succ depth ih => exact hanswer (perform depth) ih q w

/-- So it is in a whole run, if setting the clock keeps it. -/
theorem Run.rel {w w' : Alone} (hclock : ∀ (w : Alone) now, R w { w with now }) (h : Run w w') :
    R w w' := by
  induction h with
  | refl => exact refl_of R w
  | tail _ hm ih =>
    obtain ⟨move, hm⟩ := hm
    refine trans_of R ih ?_
    cases move with
    | ask q =>
      obtain ⟨depth, hm⟩ := hm
      exact leads_perform hanswer depth q _ _ hm
    | clock now =>
      cases hm
      exact hclock _ now

end Preorder

/-- The world after some requests whose calls nest no more than once. -/
def asked (w : Alone) (requests : List Request) : Alone :=
  leavesAll (perform 2) requests w

theorem run_asked {requests : List Request} {w : Alone}
    (h : isFineAll (perform 2) requests w = true) : Run w (w.asked requests) :=
  Relation.ReflTransGen.mono (fun _ _ ⟨q, hq⟩ => ⟨.ask q, 2, hq⟩) _ _ (ends_leavesAll h)

/-! ### What one step keeps -/

variable {w w' : Alone}

/-- What happened is in its place, and the signal knows of the first mark that is left; so far it
fired no more often than there were marks. -/
structure Fair (window : Number) (w : Alone) : Prop where
  wide : w.signal.window = window
  mark : firstMark? w.trace.events = if w.signal.dirty then some w.signal.markedAt else none
  lawful : Lawful window w.trace.events
  count : w.trace.events.countP Event.isFiring + w.signal.dirty.toNat ≤
    w.trace.events.countP Event.isMark

theorem fair_start (window : Number) : Fair window (start window) where
  wide := rfl
  mark := rfl
  lawful := lawful_nil
  count := Nat.le_refl 0

/-- The signal is marked as before. -/
structure Alike (w w' : Alone) : Prop where
  wide : w'.signal.window = w.signal.window
  dirty : w'.signal.dirty = w.signal.dirty
  markedAt : w'.signal.markedAt = w.signal.markedAt

theorem Fair.still (h : Fair window w) (ha : Alike w w') (ht : w'.trace = w.trace) :
    Fair window w' where
  wide := ha.wide.trans h.wide
  mark := by rw [ht, ha.dirty, ha.markedAt, h.mark]
  lawful := by rw [ht]; exact h.lawful
  count := by rw [ht, ha.dirty]; exact h.count

theorem Fair.idle (h : Fair window w) (ha : Alike w w') (he : e.isIdle = true)
    (ht : w'.trace = w.trace.record e) : Fair window w' where
  wide := ha.wide.trans h.wide
  mark := by rw [ht, Trace.events_record, firstMark?_of_idle _ he, ha.dirty, ha.markedAt, h.mark]
  lawful := by
    rw [ht, Trace.events_record]
    exact h.lawful.snoc (obeys_of_isIdle he)
  count := by
    obtain ⟨-, -, hf⟩ := idle_cases he
    have hc := h.count
    rw [ht, Trace.events_record, List.countP_append, List.countP_append, ha.dirty,
      List.countP_singleton, hf]
    exact Nat.le_add_right_of_le hc

/-- A mark is made. -/
def markedNow (w : Alone) : Alone :=
  { w with signal := w.signal.mark w.now, trace := w.trace.record (.marked w.now) }

theorem Fair.markedNow (h : Fair window w) : Fair window w.markedNow := by
  have hm := h.mark
  have hc := h.count
  unfold Alone.markedNow ChangeSignal.mark
  refine ⟨?_, ?_, ?_, ?_⟩
  · split <;> exact h.wide
  · rw [Trace.events_record, firstMark?_snoc, hm]
    cases hd : w.signal.dirty <;> simp [hd, Event.clears, Event.markTime?]
  · rw [Trace.events_record]
    exact h.lawful.snoc ⟨nofun, nofun, nofun⟩
  · rw [Trace.events_record, List.countP_append, List.countP_append]
    cases hd : w.signal.dirty <;>
      simp [hd, Event.isFiring, Event.isMark, Event.markTime?] at hc ⊢ <;> omega

/-- A mark is forgotten. -/
def unmarked (w : Alone) : Alone :=
  { w with signal := w.signal.reset, trace := w.trace.record .unmarked }

/-- A signal begins. -/
def begun (w : Alone) : Alone :=
  { w with signal := w.signal.reset, trace := w.trace.record (.signal []) }

/-- A poll is made. -/
def polled (w : Alone) : Alone :=
  { w with trace := w.trace.record (.polled w.now (w.signal.isDue w.now)) }

theorem Fair.unmarked (h : Fair window w) : Fair window w.unmarked where
  wide := h.wide
  mark := by
    rw [Alone.unmarked, Trace.events_record, firstMark?_snoc]
    rfl
  lawful := by
    rw [Alone.unmarked, Trace.events_record]
    exact h.lawful.snoc ⟨nofun, nofun, nofun⟩
  count := by
    have hc := h.count
    rw [Alone.unmarked, Trace.events_record, List.countP_append, List.countP_append]
    exact Nat.le_trans (Nat.le_trans (Nat.le_add_right _ _) hc) (Nat.le_add_right _ _)

theorem Fair.begun (h : Fair window w) : Fair window w.begun where
  wide := h.wide
  mark := by
    rw [Alone.begun, Trace.events_record, firstMark?_snoc]
    rfl
  lawful := by
    rw [Alone.begun, Trace.events_record]
    exact h.lawful.snoc ⟨nofun, nofun, nofun⟩
  count := by
    have hc := h.count
    rw [Alone.begun, Trace.events_record, List.countP_append, List.countP_append]
    exact Nat.le_trans (Nat.le_trans (Nat.le_add_right _ _) hc) (Nat.le_add_right _ _)

/-- A poll fires when the time of the first mark has come. -/
theorem Fair.isDue_iff (h : Fair window w) : w.signal.isDue w.now = true ↔
    ∃ m, firstMark? w.trace.events = some m ∧ window.above (w.now - m) = false := by
  rw [h.mark, ChangeSignal.isDue, h.wide]
  cases w.signal.dirty <;> simp

/-- A poll that does not fire leaves everything as it is. -/
theorem Fair.polled (h : Fair window w) (hn : w.signal.isDue w.now = false) :
    Fair window w.polled where
  wide := h.wide
  mark := by
    rw [Alone.polled, Trace.events_record, firstMark?_snoc, hn]
    exact (Option.or_none).trans h.mark
  lawful := by
    rw [Alone.polled, Trace.events_record]
    refine h.lawful.snoc ⟨fun now fires he => ?_, fun now he => ?_, nofun⟩
    · cases he
      exact h.isDue_iff
    · rw [hn] at he
      cases he
  count := by
    have hc := h.count
    rw [Alone.polled, Trace.events_record, List.countP_append, List.countP_append, hn]
    exact hc

/-- A poll that fires begins a signal at once. -/
theorem Fair.fired (h : Fair window w) (hd : w.signal.isDue w.now = true) :
    Fair window w.polled.begun where
  wide := h.wide
  mark := by
    rw [Alone.begun, Trace.events_record, firstMark?_snoc]
    rfl
  lawful := by
    have he : w.polled.begun.trace.events = w.trace.events ++ [.polled w.now true, .signal []] := by
      rw [Alone.begun, Trace.events_record, Alone.polled, Trace.events_record, hd,
        List.append_assoc]
      rfl
    rw [he]
    refine h.lawful.append fun l e r hl => ?_
    cases l with
    | nil =>
      cases hl
      refine ⟨fun now fires he => ?_, fun now he => ⟨[], [], rfl⟩, nofun⟩
      cases he
      rw [List.append_nil]
      exact ⟨fun _ => h.isDue_iff.mp hd, fun _ => rfl⟩
    | cons x l =>
      obtain ⟨-, rfl⟩ : x = .polled w.now true ∧ e = .signal [] := by
        cases l <;> simp_all
      exact ⟨nofun, nofun, nofun⟩
  count := by
    have hc := h.count
    have hdirty : w.signal.dirty = true := by
      unfold ChangeSignal.isDue at hd
      simp only [Bool.and_eq_true] at hd
      exact hd.1
    rw [hdirty] at hc
    rw [Alone.begun, Trace.events_record, Alone.polled, Trace.events_record, hd]
    simp only [List.countP_append, List.countP_singleton]
    exact hc

/-- A delivery ends. -/
theorem Fair.delivered (h : Fair window w) :
    Fair window { w with trace := w.trace.record (.delivered w.signal.dirty) } where
  wide := h.wide
  mark := by
    rw [Trace.events_record, firstMark?_snoc]
    exact (Option.or_none).trans h.mark
  lawful := by
    rw [Trace.events_record]
    refine h.lawful.snoc ⟨nofun, nofun, fun pending he => ?_⟩
    cases he
    rw [h.mark]
    cases w.signal.dirty <;> rfl
  count := by
    rw [Trace.events_record, List.countP_append, List.countP_append]
    exact h.count

/-! ### What a request keeps -/

/-- Whatever was fair stays so. -/
def Keeps (window : Number) (w w' : Alone) : Prop :=
  Fair window w → Fair window w'

instance : IsPreorder Alone (Keeps window) where
  refl _ := id
  trans _ _ _ h h' := h' ∘ h

/-- The calls of a delivery, and its end. -/
def deliver (ask : Request → Act Alone Answer) (listeners : List (Listener Request)) :
    Act Alone Unit := do
  announce (call ask) "Diagnostics change listener failed" listeners
  tell (.delivered (← get).signal.dirty)

variable {ask : Request → Act Alone Answer}

/-- What a poll does. -/
theorem poll_apply (w : Alone) : answer ask .poll w =
    if w.signal.isDue w.now then (fireNow ask >>= fun _ => pure (.flag true)) w.polled
    else .ok (.flag false) w.polled := by
  show (if w.signal.isDue w.now = true then fireNow ask >>= fun _ => pure (Answer.flag true)
    else pure (.flag false)) w.polled = _
  split <;> rfl

theorem leads_deliver (hask : ∀ q w, Leads (Keeps window) (ask q) w) (ls : List (Listener Request))
    (w : Alone) : Leads (Keeps window) (deliver ask ls) w := by
  have hidle (e : Event) (he : e.isIdle = true) (w : Alone) :
      Keeps window w (Holds.update (Trace.record e) w) := fun h =>
    h.idle ⟨rfl, rfl, rfl⟩ he rfl
  refine Leads.bind ?_ fun a v _ _ => ?_
  · refine leads_announce (hidle _ rfl) ls w fun l _ w => ?_
    refine Leads.step (tell_apply _ w) (hidle _ rfl w) ?_
    rw [leads_get_bind]
    refine Leads.step (tell_apply _ _) (hidle _ rfl _) ?_
    exact leads_listener (fun q a => hidle _ rfl) l _ hask
  · exact leads_of_ok (tell_apply _ v) fun h => h.delivered

theorem leads_answer (hask : ∀ q w, Leads (Keeps window) (ask q) w) (q : Request) (w : Alone) :
    Leads (Keeps window) (answer ask q) w := by
  have hstill {w w' : Alone} (ha : Alike w w') (ht : w'.trace = w.trace) : Keeps window w w' :=
    fun h => h.still ha ht
  have hidle {w w' : Alone} {e : Event} (he : e.isIdle = true) (ha : Alike w w')
      (ht : w'.trace = w.trace.record e) : Keeps window w w' := fun h => h.idle ha he ht
  cases q with
  | subscribe name script =>
    exact leads_of_ok rfl (hidle (e := .registered w.known.length) rfl ⟨rfl, rfl, rfl⟩ rfl)
  | resubscribe name =>
    unfold answer
    rw [leads_get_bind]
    cases Listener.latest? w.known name with
    | some l => exact leads_of_ok rfl (hidle (e := .registered l.serial) rfl ⟨rfl, rfl, rfl⟩ rfl)
    | none => exact leads_of_ok rfl id
  | unsubscribe name =>
    unfold answer
    rw [leads_get_bind]
    cases Listener.latest? w.known name with
    | some l => exact leads_of_ok rfl (hidle (e := .removed l.serial) rfl ⟨rfl, rfl, rfl⟩ rfl)
    | none => exact leads_of_ok rfl id
  | unsubscribeUnknown => exact Leads.pure _ w
  | mark => exact leads_of_ok (v := w.markedNow) rfl fun h => h.markedNow
  | reset => exact leads_of_ok (v := w.unmarked) rfl fun h => h.unmarked
  | poll =>
    cases hd : w.signal.isDue w.now with
    | true =>
      refine Leads.after (y := deliver ask w.signal.listeners >>= fun _ => pure (.flag true))
        (v := w.polled.begun) (fun h => h.fired hd) ?_ ?_
      · exact Leads.bind (leads_deliver hask _ _) fun _ v _ _ => Leads.pure _ v
      · rw [poll_apply, if_pos hd]
        rfl
    | false =>
      refine leads_of_ok (a := .flag false) (v := w.polled) ?_ fun h => h.polled hd
      rw [poll_apply, if_neg (Bool.eq_false_iff.mp hd)]
  | fire =>
    refine Leads.after (y := deliver ask w.signal.listeners >>= fun _ => pure .nothing)
      (v := w.begun) (fun h => h.begun) ?_ rfl
    exact Leads.bind (leads_deliver hask _ _) fun _ v _ _ => Leads.pure _ v
  | advance seconds =>
    have hx : Leads (Keeps window) (inSeconds seconds) w := by
      unfold inSeconds
      cases seconds.toFloat? with
      | some x => exact Leads.pure x w
      | none => exact Leads.throw .overflow w
    exact Leads.bind hx fun x v _ _ =>
      leads_of_ok (v := { v with now := v.now + x }) rfl (hstill ⟨rfl, rfl, rfl⟩ rfl)

/-- Every world of a run is fair. -/
theorem fair_of_run (h : Run (start window) w) : Fair window w :=
  have hkeeps : Keeps window (start window) w := h.rel (fun _ hask => leads_answer hask)
    fun _ _ hw => hw.still ⟨rfl, rfl, rfl⟩ rfl
  hkeeps (fair_start window)

/-- Between two polls that fire lies the window, as long as the clock does not go back. -/
theorem Fair.apart (h : Fair window w) (hf : Forward w.trace.events) {t t' : Float}
    (hw : w.trace.events = before ++ .polled t true :: events ++ .polled t' true :: after) :
    window.above (t' - t) = false := by
  obtain ⟨stored, rest, hs⟩ := (h.lawful before (.polled t true) (events ++ .polled t' true :: after)
    (by rw [hw, List.append_assoc, List.cons_append])).fired t rfl
  obtain ⟨m, hm, ha⟩ := ((h.lawful _ _ _ hw).polled t' true rfl).mp rfl
  cases events with
  | nil => cases hs
  | cons e events =>
    obtain ⟨rfl, -⟩ := List.cons.inj hs
    have hmem : .marked m ∈ events := by
      rw [List.append_cons] at hm
      exact marked_mem_of_firstMark? rfl hm
    have hs : w.trace.events = before ++
        .polled t true :: (.signal stored :: events ++ .polled t' true :: after) := by simp [hw]
    have hle : t ≤ m := hf.le hs rfl (List.mem_append_left _ (List.mem_cons_of_mem _ hmem)) rfl
    refine Bool.eq_false_iff.mpr fun hb => ?_
    rw [Number.above_sub_of_le hle hb] at ha
    cases ha

/-- A mark that nothing clears is signalled by a poll whose time has come for it, however many
marks there are, as long as the clock does not go back. -/
theorem Fair.due (h : Fair window w) (hf : Forward w.trace.events) {m t : Float} {fires : Bool}
    (hw : w.trace.events = before ++ .marked m :: events ++ .polled t fires :: after)
    (hc : ∀ e ∈ events, e.clears = false) (ht : window.above (t - m) = false) : fires = true := by
  obtain ⟨first, hfirst, hor⟩ := firstMark?_of_marked before m events hc
  refine ((h.lawful _ _ _ hw).polled t fires rfl).mpr ⟨first, hfirst, ?_⟩
  rcases hor with rfl | hmem
  · exact ht
  · obtain ⟨a, b, rfl⟩ := List.append_of_mem hmem
    have hs : w.trace.events = a ++
        .marked first :: (b ++ .marked m :: (events ++ .polled t fires :: after)) := by simp [hw]
    have hle : first ≤ m := hf.le hs rfl (List.mem_append_right _ List.mem_cons_self) rfl
    refine Bool.eq_false_iff.mpr fun hb => ?_
    rw [Number.above_sub_of_le hle hb] at ht
    cases ht

/-- Whatever is asked of a signal, by anybody and by its listeners in the middle of a delivery,
and wherever the clock is set: a poll fires if and only if a change was marked since the latest
reset or start of a signal and the first such mark is no less than the window ago. It begins a
signal at once then, and it answers so. There are no more polls that fire than marks, and a change
marked during a delivery is still marked when the delivery ends, unless it was cleared meanwhile.
If the readings of the clock never go back, two polls that fire are no less than the window apart,
and a mark that nothing clears is signalled by the first poll at its time or later. -/
theorem polls_keep_the_window (h : Run (start window) w) :
    (∀ before now fires after, w.trace.events = before ++ .polled now fires :: after →
      (fires = true ↔ ∃ m, firstMark? before = some m ∧ window.above (now - m) = false) ∧
      (fires = true → ∃ stored rest, after = .signal stored :: rest)) ∧
    (∀ depth answer w', perform depth .poll w = .ok answer w' → ∃ fires, answer = .flag fires ∧
      (fires = true ↔
        ∃ m, firstMark? w.trace.events = some m ∧ window.above (w.now - m) = false)) ∧
    w.trace.events.countP Event.isFiring ≤ w.trace.events.countP Event.isMark ∧
    (∀ before pending after, w.trace.events = before ++ .delivered pending :: after →
      pending = (firstMark? before).isSome ∧
      ∀ earlier m later, before = earlier ++ .marked m :: later →
        (∀ e ∈ later, e.clears = false) → pending = true) ∧
    (Forward w.trace.events →
      (∀ before t events t' after,
        w.trace.events = before ++ .polled t true :: events ++ .polled t' true :: after →
        window.above (t' - t) = false) ∧
      ∀ before m events t fires after,
        w.trace.events = before ++ .marked m :: events ++ .polled t fires :: after →
        (∀ e ∈ events, e.clears = false) → window.above (t - m) = false → fires = true) := by
  have hw := fair_of_run h
  refine ⟨fun before now fires after hs => ?_, fun depth a w' ha => ?_,
    Nat.le_trans (Nat.le_add_right _ _) hw.count, fun before pending after hs => ?_,
    fun hf => ⟨fun _ _ _ _ _ => hw.apart hf, fun _ _ _ _ _ _ => hw.due hf⟩⟩
  · have ho := hw.lawful _ _ _ hs
    refine ⟨ho.polled now fires rfl, fun hfires => ?_⟩
    subst hfires
    exact ho.fired now rfl
  · cases depth with
    | zero => cases ha
    | succ depth =>
      refine ⟨w.signal.isDue w.now, ?_, hw.isDue_iff⟩
      rw [perform, poll_apply] at ha
      split at ha
      · rename_i hd
        obtain ⟨_, _, -, hp⟩ := ok_bind ha
        cases hp
        rw [hd]
      · rename_i hd
        cases ha
        rw [Bool.eq_false_iff.mpr hd]
  · have ho := (hw.lawful _ _ _ hs).delivered pending rfl
    refine ⟨ho, fun earlier m later hb hc => ?_⟩
    obtain ⟨first, hfirst, -⟩ := firstMark?_of_marked earlier m later hc
    rw [ho, hb, hfirst]
    rfl

/-- A burst of two marks gives one signal, and the mark that the listener makes in its delivery
another one. -/
theorem window_kept_with_marking_listener :
    let w := (start (.int 1)).asked [.subscribe "a" (fun _ => [.ask .mark]), .mark,
      .mark, .advance (.int 1), .poll, .poll, .advance (.int 1), .poll]
    Run (start (.int 1)) w ∧ w.trace.events.countP Event.isFiring = 2 ∧
      2 ≤ w.trace.events.countP Event.isMark ∧ Forward w.trace.events ∧
      ∀ before t events t' after,
        w.trace.events = before ++ .polled t true :: events ++ .polled t' true :: after →
        (Number.int 1).above (t' - t) = false := by
  intro w
  have h : Run (start (.int 1)) w := run_asked (by decide +kernel)
  have hlaw := polls_keep_the_window h
  have hcount : w.trace.events.countP Event.isFiring = 2 := by decide +kernel
  have hf : Forward w.trace.events := by
    unfold Forward
    decide +kernel
  exact ⟨h, hcount, hcount ▸ hlaw.2.2.1, hf, (hlaw.2.2.2.2 hf).1⟩

end Alone
end ChangeSignal
end DiagnosticWatch
