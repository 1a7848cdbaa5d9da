/-
# Sessions whose listeners ask for nothing

A listener that asks for nothing may fail, and that is logged; otherwise a
round of calls leaves nothing but its events in the trace
(`Session.announce_of_calls`). So it is settled to the last event what becomes
of such a session when the link leaves its connection (`Session.leave_clears`),
and what is signalled and written then can be read off (`Session.leave_of_mute`).

Key definitions: `roundOf`, `Session.signals`, `Session.written`, `Session.Mute`,
`Session.parting`, `Session.cleared`, `Session.Dropped`.
Key theorems: `Session.announce_of_calls`, `Session.leave_clears`,
`Session.leave_of_mute`.
-/
import DiagnosticWatch.Proofs.Session.Calls

namespace DiagnosticWatch

/-- The connection that bytes were written to, and the bytes. -/
def Event.write? : Event → Option (Nat × List UInt8)
  | .write i bytes => some (i, bytes)
  | _ => none

/-- Whether a reaction is anything but a request. -/
def Reaction.isMute {ρ : Type} : Reaction ρ → Bool
  | .fail _ => true
  | .ask _ => false

/-- A listener never asks for anything, though it may fail. -/
def Listener.IsMute {ρ : Type} (l : Listener ρ) : Prop :=
  ∀ trace, (l.script trace).all Reaction.isMute = true

/-- Whether a listener that asks for nothing fails when it is called now. -/
def Listener.fails {ρ : Type} (l : Listener ρ) (trace : Trace) : Bool :=
  !(l.script trace).isEmpty

/-- All this happened next, in this order. -/
def Trace.recordAll (events : List Event) (t : Trace) : Trace :=
  ⟨events.reverse ++ t.latestFirst⟩

theorem Trace.recordAll_append (events more : List Event) (t : Trace) :
    t.recordAll (events ++ more) = (t.recordAll events).recordAll more := by
  simp [recordAll]

/-- What a call tells, and what is logged if it fails. -/
def callOf (call : Event) (fails : Trace → Bool) (complaint : String) (trace : Trace) :
    List Event :=
  call :: if fails (trace.record call) then [.log .error complaint] else []

/-- What a round of calls tells: each listener is called once, and a call that fails is logged.
Whether it does may depend on what has been told before. -/
def roundOf {ρ : Type} (call : Listener ρ → Event) (fails : Listener ρ → Trace → Bool)
    (complaint : String) : Trace → List (Listener ρ) → List Event
  | _, [] => []
  | trace, l :: ls =>
    let told := callOf (call l) (fails l) complaint trace
    told ++ roundOf call fails complaint (trace.recordAll told) ls

namespace Session

open Act

/-- What was stored at each change signal so far, in order. -/
def signals (s : Session) : List (List Report) :=
  s.trace.events.filterMap Event.signal?

/-- What was written to connections so far, in order. -/
def written (s : Session) : List (Nat × List UInt8) :=
  s.trace.events.filterMap Event.write?

/-- All listeners ask for nothing. -/
structure Mute (s : Session) : Prop where
  state : ∀ l ∈ s.link.life.listeners, l.IsMute
  change : ∀ l ∈ s.link.signal.listeners, l.IsMute

theorem mute_of_listeners {all : List (Listener Request)} {s : Session}
    (hall : s.link.life.listeners ++ s.link.signal.listeners = all) (h : ∀ l ∈ all, l.IsMute) :
    s.Mute where
  state l hl := h l (hall ▸ List.mem_append_left _ hl)
  change l hl := h l (hall ▸ List.mem_append_right _ hl)

/-- Nothing happened but events, none of which is a signal or a write. -/
structure Hushed (s t : Session) : Prop where
  same : t = { s with trace := t.trace }
  signals : t.signals = s.signals
  written : t.written = s.written

variable (ask : Request → Act Session Answer) {s t u : Session} {ls : List (Listener Request)}

theorem hushed_record (s : Session) {e : Event} (hs : e.signal? = none) (hw : e.write? = none) :
    Hushed s { s with trace := s.trace.record e } where
  same := rfl
  signals := by simp [Session.signals, Trace.events_record, hs]
  written := by simp [Session.written, Trace.events_record, hw]

/-! ### Rounds of calls -/

/-- These events are told, one after the other. -/
def tellingAll (events : List Event) (s : Session) : Session :=
  { s with trace := s.trace.recordAll events }

theorem events_tellingAll (events : List Event) (s : Session) :
    (s.tellingAll events).trace.events = s.trace.events ++ events := by
  simp [tellingAll, Trace.recordAll, Trace.events]

theorem tellingAll_append (events more : List Event) (s : Session) :
    s.tellingAll (events ++ more) = (s.tellingAll events).tellingAll more := by
  simp [tellingAll, Trace.recordAll_append]

theorem tellingAll_cons (e : Event) (events : List Event) (s : Session) :
    s.tellingAll (e :: events) = (s.telling e).tellingAll events := by
  simp [tellingAll, telling, Trace.record, Trace.recordAll]

/-- The call of a listener tells an event, and may fail then. -/
def CallTells (call : Act Session Unit) (e : Event) (fails : Trace → Bool) (s : Session) : Prop :=
  if fails (s.trace.record e) then ∃ text, call s = .error (.listener text) (s.telling e)
  else call s = .ok () (s.telling e)

theorem announce_of_calls {call : Listener Request → Act Session Unit}
    {event : Listener Request → Event} {fails : Listener Request → Trace → Bool}
    (complaint : String)
    (h : ∀ l ∈ ls, ∀ events, CallTells (call l) (event l) (fails l) (s.tellingAll events)) :
    announce call complaint ls s =
      .ok () (s.tellingAll (roundOf event fails complaint s.trace ls)) := by
  induction ls generalizing s with
  | nil => rfl
  | cons l ls ih =>
    let told := callOf (event l) (fails l) complaint s.trace
    have hone : ((call l).rescue Fault.isOrdinary fun _ => log .error complaint) s =
        .ok () (s.tellingAll told) := by
      have hcall : CallTells (call l) (event l) (fails l) s := h l List.mem_cons_self []
      unfold CallTells at hcall
      cases hf : fails l (s.trace.record (event l)) with
      | false =>
        rw [hf, if_neg Bool.false_ne_true] at hcall
        simp only [Act.rescue, hcall, told, callOf, hf]
        rfl
      | true =>
        rw [hf, if_pos rfl] at hcall
        obtain ⟨text, hcall⟩ := hcall
        simp only [Act.rescue, hcall, told, callOf, hf]
        rfl
    have hrest := ih (s := s.tellingAll told) fun l' hl' events => by
      have hcall := h l' (List.mem_cons_of_mem l hl') (told ++ events)
      rwa [tellingAll_append] at hcall
    show (_ >>= fun _ => announce call complaint ls : Act Session Unit) s = _
    rw [bind_of_ok hone, hrest, ← tellingAll_append]
    rfl

theorem run_of_mute {script : List (Reaction Request)} (h : script.all Reaction.isMute = true)
    (s : Session) : if !script.isEmpty then
        ∃ text, Script.run Request.name ask script s = .error (.listener text) s
      else Script.run Request.name ask script s = .ok () s := by
  match script with
  | [] => rfl
  | .fail text :: _ => exact ⟨text, rfl⟩
  | .ask request :: _ => cases h

theorem tellState_tells (h : ∀ l ∈ ls, l.IsMute) (old new : Phase) (s : Session) :
    tellState ask old new ls s = .ok () (s.tellingAll (roundOf (fun l => .state l.name old new)
      (fun l trace => l.only.all (· = new) && l.fails trace)
      s!"State listener failed on {old.name} -> {new.name}" s.trace ls)) := by
  refine announce_of_calls _ fun l hl events => ?_
  let v := (s.tellingAll events).telling (.state l.name old new)
  have hcall : callState ask l old new (s.tellingAll events) =
      (if l.only.all (· = new) then l.perform Request.name ask else pure () :
        Act Session Unit) v := rfl
  unfold CallTells
  rw [hcall]
  cases l.only.all (· = new) with
  | false => rfl
  | true => exact run_of_mute ask (h l hl v.trace) v

theorem tellChange_tells (h : ∀ l ∈ ls, l.IsMute) (s : Session) :
    tellChange ask ls s = .ok () (s.tellingAll (roundOf
      (fun l => .change l.name (some (s.phase, s.link.store.size)) s.loop.now) Listener.fails
      "Diagnostics change listener failed" s.trace ls)) :=
  announce_of_calls _ fun l hl events =>
    let v := (s.tellingAll events).telling
      (.change l.name (some (s.phase, s.link.store.size)) s.loop.now)
    run_of_mute ask (h l hl v.trace) v

/-! ### Leaving -/

/-- What is told when the link closes its connection. -/
def closing (s : Session) : List Event :=
  s.link.writesTo.toList.map .close

/-- What is told when the link becomes disconnected: each state listener is called once, unless
the link was disconnected already. -/
def goodbye (s : Session) : List Event :=
  if s.phase = .disconnected then []
  else .moved s.phase .disconnected ::
    roundOf (fun l => .state l.name s.phase .disconnected)
      (fun l trace => l.only.all (· = .disconnected) && l.fails trace)
      s!"State listener failed on {s.phase.name} -> {Phase.disconnected.name}"
      (s.trace.record (.moved s.phase .disconnected)) s.link.life.listeners ++
    [.log .info "Disconnected from debug server"]

/-- What is told when the link forgets the reports: each change listener is called once, and sees
a disconnected link and no report, unless there was none. -/
def clearing (s : Session) : List Event :=
  if s.link.store.isEmpty then []
  else .signal [] ::
    roundOf (fun l => .change l.name (some (.disconnected, 0)) s.loop.now) Listener.fails
      "Diagnostics change listener failed" (s.trace.record (.signal [])) s.link.signal.listeners

/-- What is told when the link leaves its connection and says so. -/
def withdrawing (s : Session) : List Event :=
  s.closing ++ (s.tellingAll s.closing).goodbye

/-- What is told when the link disconnects, but for a word of farewell. -/
def parting (s : Session) : List Event :=
  s.withdrawing ++ (s.tellingAll s.withdrawing).clearing

/-- The link has no connection and is disconnected. -/
def gone (s : Session) : Session :=
  { s with
    link := { s.link with
      life := ⟨.disconnected, s.link.life.listeners⟩
      writesTo := none
      readsFrom := none }
    network := s.closedHeld.network }

/-- There is no report and no marked change. -/
def emptied (s : Session) : Session :=
  { s with link := { s.link with signal := s.link.signal.reset, store := .empty } }

/-- The link has disconnected, and everybody has been told. -/
def cleared (s : Session) : Session :=
  s.gone.emptied.tellingAll s.parting

theorem left_eq (s : Session) : s.left = s.gone.tellingAll
    (s.closing ++ if s.phase = .disconnected then [] else [.moved s.phase .disconnected]) := by
  obtain ⟨⟨settings, ⟨phase, listeners⟩, signal, store, writesTo, readsFrom, dial, traffic⟩,
    pacer, loop, network, known, trace⟩ := s
  cases writesTo <;> cases phase <;> rfl

theorem forgotten_of_empty (h : s.link.store.isEmpty = true) : s.forgotten = s.emptied := by
  unfold forgotten emptied
  rw [if_pos h, ← Store.eq_empty h]

theorem forgotten_of_reports (h : s.link.store.isEmpty = false) :
    s.forgotten = s.emptied.telling (.signal []) := by
  unfold forgotten
  rw [h]
  rfl

theorem forget_tells (h : ∀ l ∈ s.link.signal.listeners, l.IsMute)
    (hp : s.phase = .disconnected) : forget ask s = .ok () (s.emptied.tellingAll s.clearing) := by
  rw [forget_apply]
  unfold clearing
  cases he : s.link.store.isEmpty with
  | true =>
    rw [forgotten_of_empty he]
    rfl
  | false =>
    rw [forgotten_of_reports he, ← hp]
    simp only [Bool.false_eq_true, ↓reduceIte]
    rw [tellingAll_cons]
    exact tellChange_tells ask h (s.emptied.telling (.signal []))

theorem sayGoodbye_tells (h : ∀ l ∈ s.link.life.listeners, l.IsMute) :
    sayGoodbye ask s.phase s.link.life.listeners s.left =
      .ok () (s.gone.tellingAll s.withdrawing) := by
  unfold sayGoodbye withdrawing goodbye
  rw [left_eq]
  by_cases hp : s.phase = .disconnected
  · have hp' : (s.tellingAll s.closing).phase = .disconnected := hp
    simp only [hp, hp', ne_eq, not_true_eq_false, ↓reduceIte]
    rfl
  · have hp' : (s.tellingAll s.closing).phase ≠ .disconnected := hp
    simp only [ne_eq, hp, hp', not_false_eq_true, ↓reduceIte]
    rw [bind_of_ok (tellState_tells ask h s.phase .disconnected _), ← tellingAll_append]
    simp only [log, tell_apply, tellingAll, Holds.update, Trace.record, Trace.recordAll,
      List.append_assoc, List.cons_append, List.reverse_append, List.reverse_cons]
    rfl

theorem leave_clears (h : s.Mute) : leave ask s = .ok () s.cleared := by
  have hforget : forget ask (s.gone.tellingAll s.withdrawing) = .ok () s.cleared := by
    unfold cleared parting
    rw [tellingAll_append s.withdrawing]
    exact forget_tells ask h.change rfl
  rw [leave_apply, bind_of_ok (sayGoodbye_tells ask h.state), hforget]

/-! ### Dropping the connection -/

/-- The connection has been dropped and the reports are forgotten, which was signalled if
there were any. -/
structure Dropped (s t : Session) : Prop where
  phase : t.phase = .disconnected
  readsFrom : t.link.readsFrom = none
  store : t.link.store = .empty
  dirty : t.link.signal.dirty = false
  signals : t.signals = s.signals ++ if s.link.store.isEmpty then [] else [[]]
  written : t.written = s.written

theorem Dropped.congr {s' : Session} (h : Dropped s t) (signals : s'.signals = s.signals)
    (store : s'.link.store = s.link.store) (written : s'.written = s.written) : Dropped s' t where
  phase := h.phase
  readsFrom := h.readsFrom
  store := h.store
  dirty := h.dirty
  signals := by rw [h.signals, signals, store]
  written := h.written.trans written.symm

theorem filterMap_roundOf {β : Type} {f : Event → Option β} {call : Listener Request → Event}
    (hcall : ∀ l, f (call l) = none) (hlog : ∀ level text, f (.log level text) = none)
    (fails : Listener Request → Trace → Bool) (complaint : String) (trace : Trace)
    (ls : List (Listener Request)) : (roundOf call fails complaint trace ls).filterMap f = [] := by
  induction ls generalizing trace with
  | nil => rfl
  | cons l ls ih =>
    have hone : (callOf (call l) (fails l) complaint trace).filterMap f = [] := by
      rw [callOf, List.filterMap_cons_none (hcall l)]
      split
      · exact List.filterMap_cons_none (hlog ..)
      · rfl
    rw [roundOf, List.filterMap_append, hone, ih, List.nil_append]

/-- What is told when the link disconnects is a signal, if there is one, and nothing to which one
looks who does not look at calls and steps. -/
theorem filterMap_parting {β : Type} {f : Event → Option β} (hclose : ∀ i, f (.close i) = none)
    (hmoved : ∀ old new, f (.moved old new) = none)
    (hstate : ∀ name old new, f (.state name old new) = none)
    (hchange : ∀ name seen time, f (.change name seen time) = none)
    (hlog : ∀ level text, f (.log level text) = none) (s : Session) :
    s.parting.filterMap f = if s.link.store.isEmpty then [] else (f (.signal [])).toList := by
  have hclosing : s.closing.filterMap f = [] := by
    unfold closing
    cases s.link.writesTo with
    | none => rfl
    | some i => exact List.filterMap_cons_none (hclose i)
  have hgoodbye (t : Session) : t.goodbye.filterMap f = [] := by
    unfold goodbye
    split
    · rfl
    · rw [List.filterMap_append, List.filterMap_cons_none (hmoved ..),
        filterMap_roundOf (fun _ => hstate ..) hlog, List.filterMap_cons_none (hlog ..)]
      rfl
  have hclearing (t : Session) : t.clearing.filterMap f =
      if t.link.store.isEmpty then [] else (f (.signal [])).toList := by
    unfold clearing
    split
    · rfl
    · rw [List.filterMap_cons, filterMap_roundOf (fun _ => hchange ..) hlog]
      cases f (.signal []) <;> rfl
  rw [parting, withdrawing, List.filterMap_append, List.filterMap_append, hclosing, hgoodbye,
    hclearing]
  rfl

theorem dropped_cleared (s : Session) : Dropped s s.cleared where
  phase := rfl
  readsFrom := rfl
  store := rfl
  dirty := rfl
  signals := by
    unfold Session.signals cleared
    rw [events_tellingAll, List.filterMap_append,
      filterMap_parting (fun _ => rfl) (fun _ _ => rfl) (fun _ _ _ => rfl) (fun _ _ _ => rfl)
        (fun _ _ => rfl)]
    rfl
  written := by
    unfold Session.written cleared
    rw [events_tellingAll, List.filterMap_append,
      filterMap_parting (fun _ => rfl) (fun _ _ => rfl) (fun _ _ _ => rfl) (fun _ _ _ => rfl)
        (fun _ _ => rfl)]
    cases s.link.store.isEmpty <;> exact List.append_nil _

/-- A mute session leaves its connection without a fault. -/
theorem leave_of_mute (h : s.Mute) : ∃ t, leave ask s = .ok () t ∧ Dropped s t :=
  ⟨s.cleared, leave_clears ask h, dropped_cleared s⟩

end Session
end DiagnosticWatch
