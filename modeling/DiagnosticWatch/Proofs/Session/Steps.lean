/-
# The acts of the link, taken apart

What the acts of the link do up to the point where the listeners run, and what
is left to do then. A step calls the state listeners in the phase gone to; a
signal calls the change listeners. To disconnect is to call off the dial under
way, to take leave of the peer if that is asked for, and to leave; to leave is
to let go of the connection, and when the state listeners have been told of
that, to forget the reports. To connect is to set out when there is nothing to
drop any more. To drain an inbox is to take a frame out and to hear it, until
there is none or the connection is given up. The upkeep of a tick of the pacer
is stated with the calls that it makes as parameters, too.

Key definitions: `Session.tellState`, `Session.tellChange`, `Session.callOff`,
`Session.leave`, `Session.forget`, `Session.setOut`, `Session.hear`,
`Session.tookOut`, `Session.Calls`, `Session.upkeepWith`.
Key theorems: `Session.moveTo_apply`, `Session.fire_apply`,
`Session.disconnect_eq`, `Session.leave_apply`, `Session.forget_apply`,
`Session.connect_apply`, `Session.drain_cases`, `Session.upkeepWith_own`.
-/
import DiagnosticWatch.Proofs.Session.Work

namespace DiagnosticWatch
namespace Session

open Act

variable {s t : Session} {ask : Request → Act Session Answer} {i : Nat}

/-! ### Steps and signals -/

/-- The state listeners of the session are called. -/
def tellState (ask : Request → Act Session Answer) (old new : Phase) (ls : List (Listener Request)) :
    Act Session Unit :=
  announce (fun l => callState ask l old new) s!"State listener failed on {old.name} -> {new.name}" ls

/-- The change listeners of the session are called. -/
def tellChange (ask : Request → Act Session Answer) (ls : List (Listener Request)) :
    Act Session Unit :=
  announce (callChange ask) "Diagnostics change listener failed" ls

theorem moveTo_apply {target : Phase} (h : s.phase.canBecome target = true) :
    moveTo ask target s =
      tellState ask s.phase target s.link.life.listeners (s.movedTo target) := by
  show (if s.phase.canBecome target then _ else _ : Act Session Unit) s = _
  rw [if_pos h]
  rfl

theorem moveTo_of_not {target : Phase} (h : s.phase.canBecome target = false) :
    moveTo ask target s =
      .error (.badTransition s.phase target) (s.telling (.refused s.phase target)) := by
  show (if s.phase.canBecome target then _ else _ : Act Session Unit) s = _
  rw [if_neg (by simp [h])]
  rfl

theorem fire_apply (ask : Request → Act Session Answer) (s : Session) :
    fire ask s = tellChange ask s.signalled.link.signal.listeners s.signalled := rfl

/-! ### Words to the peer -/

theorem isOrdinary_of_isWriteFailure (e : Fault) (h : e.isWriteFailure = true) :
    e.isOrdinary = true := by
  cases e <;> first | rfl | cases h

theorem isWriteFailure_write {fault : WriteFault} (h : fault ≠ .refused) :
    (Fault.write fault).isWriteFailure = true := by
  cases fault <;> first | rfl | exact absurd rfl h

theorem tellOfHeld_apply (h : s.link.writesTo = some i) (event : Nat → Event) :
    tellOfHeld event s = .ok () (s.telling (event i)) := by
  unfold tellOfHeld
  rw [get_bind_apply, h]
  rfl

/-- Bytes are written to the connection that there is, or it is told why not. -/
theorem write_cases (h : s.link.writesTo = some i) (bytes : List UInt8) :
    (s.writeFault? = none ∧ write bytes s = .ok () (s.telling (.write i bytes))) ∨
    ∃ fault, s.writeFault? = some fault ∧
      write bytes s = .error (.write fault) (s.telling (.unsent i fault)) := by
  unfold write
  rw [get_bind_apply]
  cases s.writeFault? with
  | none => exact .inl ⟨rfl, tellOfHeld_apply h _⟩
  | some fault =>
    exact .inr ⟨fault, rfl, bind_of_ok (f := fun _ => throw (.write fault)) (tellOfHeld_apply h _)⟩

/-! ### Without a connection -/

theorem tellOfHeld_of_none (h : s.link.writesTo = none) (event : Nat → Event) :
    tellOfHeld event s = .ok () s := by
  unfold tellOfHeld
  rw [get_bind_apply, h]
  rfl

theorem send_of_apart (h : s.phase ≠ .connected) (code : Int) : send ask code s = .ok false s := by
  unfold send
  rw [get_bind_apply, if_pos h]
  rfl

theorem tick_of_apart (h : s.phase ≠ .connected) : tick ask s = .ok () s := by
  unfold tick
  rw [get_bind_apply, if_pos h]
  rfl

/-! ### Disconnecting and connecting -/

/-- The dial under way is cancelled, if there is one. -/
def callOff : Act Session Unit := do
  match (← get).link.dial with
  | some d =>
    cancelDial d
    onLink fun l => { l with dial := none }
  | none => pure ()

/-- All reports are forgotten. -/
def forget (ask : Request → Act Session Answer) : Act Session Unit := do
  onSignal ChangeSignal.reset
  let cleared := (← get).link.store.clear
  onLink fun l => { l with store := cleared.2 }
  if cleared.1 then fire ask

/-- The connection is left, without a word to the peer, and all reports are forgotten. -/
def leave (ask : Request → Act Session Answer) : Act Session Unit := do
  match (← get).link.writesTo with
  | some i => close i
  | none => pure ()
  onLink fun l => { l with writesTo := none, readsFrom := none }
  if (← get).phase ≠ .disconnected then
    moveTo ask .disconnected
    log .info "Disconnected from debug server"
  forget ask

theorem disconnect_eq (ask : Request → Act Session Answer) (notify : Bool) :
    disconnect ask notify = (do
      callOff
      if notify then takeLeave
      leave ask) := by
  unfold disconnect
  extract_lets forgetting parting leaving telling
  have hf : forgetting = fun _ => forget ask := rfl
  have hl : leaving = fun _ => leave ask := by
    funext _ v
    cases hv : v.link.writesTo <;>
      simp only [leaving, parting, hf, leave, hv, bind_apply, close_apply, onLink_apply, get_apply]
  have ht : telling = fun _ => (do
      if notify then takeLeave
      leave ask) := by
    funext _
    simp only [telling, hl]
  funext v
  simp only [ht, callOff, get_bind_apply, bind_assoc]
  cases v.link.dial with
  | none => rfl
  | some d =>
    simp only [bind_assoc]
    rfl

theorem forget_apply (ask : Request → Act Session Answer) (s : Session) :
    forget ask s = (if s.link.store.isEmpty then pure ()
      else tellChange ask s.forgotten.link.signal.listeners : Act Session Unit) s.forgotten := by
  unfold forget forgotten
  rw [bind_of_ok (show onSignal ChangeSignal.reset s = .ok () _ from rfl), get_bind_apply]
  show (if !s.link.store.isEmpty then _ else _ : Act Session Unit) _ = _
  cases he : s.link.store.isEmpty with
  | false => rfl
  | true =>
    obtain ⟨⟨settings, life, signal, store, writesTo, readsFrom, dial, traffic⟩, _⟩ := s
    cases Store.eq_empty he
    rfl

/-- What the link does between leaving its connection and forgetting the reports. -/
def sayGoodbye (ask : Request → Act Session Answer) (old : Phase) (ls : List (Listener Request)) :
    Act Session Unit :=
  if old ≠ .disconnected then do
    tellState ask old .disconnected ls
    log .info "Disconnected from debug server"
  else pure ()

theorem leave_apply (ask : Request → Act Session Answer) (s : Session) :
    leave ask s = (sayGoodbye ask s.phase s.link.life.listeners >>= fun _ => forget ask) s.left := by
  have hp : s.parted.phase = s.phase := congrArg Lifecycle.phase (parted_life s)
  have hl : leave ask s = (do
      if s.parted.phase ≠ Phase.disconnected then
        moveTo ask .disconnected
        log .info "Disconnected from debug server"
      forget ask) s.parted := by
    unfold leave parted closedHeld
    rw [get_bind_apply]
    cases s.link.writesTo <;> rfl
  rw [hl, hp]
  unfold sayGoodbye left
  by_cases h : s.phase = .disconnected
  · simp only [h, ne_eq, not_true_eq_false, ↓reduceIte, pure_bind]
  · have hc : s.parted.phase.canBecome .disconnected = true := by
      rw [hp]
      cases hs : s.phase <;> first | rfl | exact absurd hs h
    simp only [ne_eq, h, not_false_eq_true, ↓reduceIte, bind_assoc]
    rw [bind_apply, moveTo_apply hc, hp, parted_life, bind_apply]

theorem sayGoodbye_error {old : Phase} {ls : List (Listener Request)} {e : Fault}
    (h : sayGoodbye ask old ls s = .error e t) : e.isOrdinary = false := by
  unfold sayGoodbye at h
  split at h
  · rw [bind_apply] at h
    cases ha : tellState ask old .disconnected ls s with
    | ok a v =>
      rw [ha] at h
      cases h
    | error e' v =>
      rw [ha] at h
      cases h
      exact announce_error ls s ha
  · cases h

theorem left_listeners (s : Session) : s.left.link.life.listeners = s.link.life.listeners := by
  have h : s.parted.link.life.listeners = s.link.life.listeners :=
    congrArg Lifecycle.listeners (parted_life s)
  unfold left
  split <;> exact h

/-- To call off the dial under way leaves the link alone otherwise. -/
theorem callOff_keeps (s : Session) : ∃ t, callOff s = .ok () t ∧
    t.link = { s.link with dial := none } ∧ t.trace = s.trace ∧
    t.network.connections = s.network.connections ∧ t.pacer = s.pacer := by
  unfold callOff
  cases hd : s.link.dial with
  | none =>
    refine ⟨s, by rw [get_bind_apply, hd]; rfl, ?_, rfl, rfl, rfl⟩
    rw [← hd]
  | some d =>
    obtain ⟨t, ht, hr⟩ := cancelDial_ok d s
    refine ⟨t.dialless, by rw [get_bind_apply, hd]; exact bind_of_ok ht, ?_⟩
    obtain rfl | ⟨dial, wake, asked, jobs, -, -, rfl⟩ := hr
    · exact ⟨rfl, rfl, rfl, rfl⟩
    · exact ⟨rfl, rfl, rfl, rfl⟩

/-- What is left to do when the dial under way has been cancelled. -/
def part (ask : Request → Act Session Answer) (notify : Bool) : Act Session Unit := do
  if notify then takeLeave
  leave ask

/-- The link makes a dial, once it has let go of what there was. -/
def setOut (ask : Request → Act Session Answer) (host : String) (port : Number) :
    Act Session Unit := do
  moveTo ask .connecting
  log .debug s!"Connecting to debug server at {host}:{port.text}"
  let d ← startDial host port
  onLink fun l => { l with dial := some d }

/-- The link sets out from the phase `disconnected` only. -/
theorem setOut_of_not (ask : Request → Act Session Answer) (host : String) (port : Number)
    (h : s.phase ≠ .disconnected) :
    setOut ask host port s = .error (.badTransition s.phase .connecting)
      (s.telling (.refused s.phase .connecting)) := by
  have hm : s.phase.canBecome .connecting = false := by
    cases hp : s.phase <;> first | rfl | exact absurd hp h
  exact bind_of_error (moveTo_of_not hm)

theorem connect_apply (ask : Request → Act Session Answer) (host : String) (port : Number)
    (h : s.loop.running = true) :
    connect ask host port s =
      if s.phase = .disconnected then setOut ask host port s
      else (disconnect ask false >>= fun _ => setOut ask host port : Act Session Unit) s := by
  unfold connect
  simp only [get_bind_apply, h, Bool.not_true, Bool.false_eq_true, ↓reduceIte]
  by_cases hp : s.phase = .disconnected
  · simp only [hp, ne_eq, not_true_eq_false, ↓reduceIte]
    rfl
  · simp only [ne_eq, hp, not_false_eq_true, ↓reduceIte]
    rfl

/-! ### Receiving -/

/-- Handles a frame, and does what follows or drops the connection. -/
def hear (ask : Request → Act Session Answer) (frame : Frame) (next : Act Session Unit) :
    Act Session Unit := do
  match ← handle ask frame with
  | .ok () => next
  | .error e => giveUp ask e

/-- The inbox of connection `i` changes. -/
def refilled (i : Nat) (f : Inbox → Inbox) (s : Session) : Session :=
  let connections := s.network.connections.modify i fun c =>
    { c with receiver := { c.receiver with inbox := f c.receiver.inbox } }
  { s with network := { s.network with connections } }

/-- A frame has been taken out of the inbox of connection `i`, which leaves `rest`, and is
about to be handled. -/
def tookOut (i : Nat) (f : Frame) (rest : Inbox) (s : Session) : Session :=
  { s.refilled i fun _ => rest with
    link := { s.link with lastTraffic := s.loop.now }
    trace := s.trace.record (.handled i f) }

theorem receiver?_eq_some {r : Receiver} : s.receiver? = some r ↔
    ∃ i c, s.link.readsFrom = some i ∧ s.network.connections[i]? = some c ∧ c.receiver = r := by
  unfold receiver?
  cases hi : s.link.readsFrom with
  | none => simp
  | some i => cases hc : s.network.connections[i]? <;> simp [hc]

theorem receiver_of_isUp (h : s.isUp = true) :
    s.phase = .connected ∧ ∃ r, s.receiver? = some r ∧ r.isAlive = true := by
  unfold isUp at h
  obtain ⟨hp, hr⟩ := Bool.and_eq_true_iff.mp h
  refine ⟨of_decide_eq_true hp, ?_⟩
  split at hr
  · exact ⟨_, ‹_›, hr⟩
  · cases hr

/-- What the link does with what its inbox begins with. -/
theorem drain_succ (ask : Request → Act Session Answer) {r : Receiver}
    (hi : s.link.readsFrom = some i) (hr : s.receiver? = some r) (bound : Nat) :
    drain ask (bound + 1) s = match r.inbox.next with
      | (.error e, _) => giveUp ask e s
      | (.ok none, _) => .ok () s
      | (.ok (some f), rest) => hear ask f (drain ask bound) (s.tookOut i f rest) := by
  rw [drain, get_bind_apply]
  simp only [hi, hr]
  rcases r.inbox.next with ⟨e | _ | f, rest⟩ <;> rfl

theorem drain_of_none (ask : Request → Act Session Answer) (h : s.receiver? = none) (bound : Nat) :
    drain ask bound s = .ok () s := by
  cases bound with
  | zero => rfl
  | succ bound =>
    rw [drain, get_bind_apply]
    simp only [h]
    cases s.link.readsFrom <;> rfl

/-- The link is done, or gives the connection up, or a frame is taken out. -/
theorem drain_cases (ask : Request → Act Session Answer) (bound : Nat) (s : Session) :
    drain ask (bound + 1) s = .ok () s ∨ (∃ e, drain ask (bound + 1) s = giveUp ask e s) ∨
    ∃ i c f rest, s.link.readsFrom = some i ∧ s.network.connections[i]? = some c ∧
      c.receiver.inbox.next = (.ok (some f), rest) ∧
      drain ask (bound + 1) s = hear ask f (drain ask bound) (s.tookOut i f rest) := by
  cases hr : s.receiver? with
  | none => exact .inl (drain_of_none ask hr _)
  | some r =>
    obtain ⟨i, c, hi, hc, rfl⟩ := receiver?_eq_some.mp hr
    have he := drain_succ ask hi hr bound
    rcases hn : c.receiver.inbox.next with ⟨e | _ | f, rest⟩ <;> rw [hn] at he
    · exact .inr (.inl ⟨e, he⟩)
    · exact .inl he
    · exact .inr (.inr ⟨i, c, f, rest, hi, hc, hn, he⟩)

/-! ### The upkeep of a tick -/

/-- What the pacer does in a tick before the change signal is polled. -/
def upkeep (ask : Request → Act Session Answer) : Act Session Unit := do
  tick ask
  let s ← get
  tell (.upkept s.phase)
  if s.phase = .disconnected then maybeConnect ask

/-- The probe has been asked. -/
def probed (s : Session) : Session :=
  { s with
    pacer := { s.pacer with probe := s.pacer.probe.map List.tail }
    trace := s.trace.record (.probe s.nextAnswer s.loop.now) }

/-- The calls that a tick of the pacer makes to the link, and to ask whether the server is likely to
be there. -/
structure Calls where
  tick : Act Session Unit
  connect : String → Number → Act Session Unit
  probe : Act Session Bool

/-- What is laid down for the probe to answer next. -/
def laidDown : Act Session Bool := do
  let s ← get
  onPacer fun p => { p with probe := p.probe.map List.tail }
  tell (.probe s.nextAnswer s.loop.now)
  match s.nextAnswer with
  | some value => return value.isTrue
  | none => throw (.listener "process table unavailable")

/-- The calls to the link of the session, and to a probe that performs a script and answers then. -/
def Calls.own (ask : Request → Act Session Answer) (script : List (Reaction Request)) : Calls where
  tick := Session.tick ask
  connect := Session.connect ask
  probe := do
    Script.run Request.name ask script
    laidDown

/-- A probe that fails says no. -/
def consult (probe : Act Session Bool) : Act Session Bool :=
  probe.rescue Fault.isOrdinary fun e => do
    log .debug s!"Backend probe failed: {e.message}"
    return false

/-- Connects, if it is time and the probe says that the server is there. -/
def maybeConnectWith (calls : Calls) : Act Session Unit := do
  let s ← get
  if s.mayRetry then
    onPacer fun p => { p with lastAttempt := some s.loop.now }
    if ← consult calls.probe then
      onPacer fun p => { p with attempts := p.attempts + 1 }
      tell (.retry s.pacer.settings.host s.pacer.settings.port)
      calls.connect s.pacer.settings.host s.pacer.settings.port

/-- What the pacer does in a tick before the change signal is polled, with these calls. -/
def upkeepWith (calls : Calls) : Act Session Unit := do
  calls.tick
  let s ← get
  tell (.upkept s.phase)
  if s.phase = .disconnected then maybeConnectWith calls

theorem laidDown_apply (s : Session) : laidDown s = match s.nextAnswer with
    | some value => .ok value.isTrue s.probed
    | none => .error (.listener "process table unavailable") s.probed := by
  have h : laidDown s = (match s.nextAnswer with
    | some value => pure value.isTrue
    | none => throw (.listener "process table unavailable") : Act Session Bool) s.probed := rfl
  rw [h]
  cases s.nextAnswer <;> rfl

theorem consult_laidDown : consult laidDown = probe := by
  funext s
  have hprobe : probe s = (match s.nextAnswer with
    | some value => return value.isTrue
    | none => do
      log .debug "Backend probe failed: process table unavailable"
      return false : Act Session Bool) s.probed := rfl
  rw [hprobe, consult, Act.rescue, laidDown_apply]
  cases s.nextAnswer <;> rfl

theorem maybeConnectWith_own (ask : Request → Act Session Answer) :
    maybeConnectWith (.own ask []) = maybeConnect ask := by
  have hprobe : consult (Calls.own ask []).probe = probe := consult_laidDown
  unfold maybeConnectWith maybeConnect
  rw [hprobe]
  rfl

theorem upkeepWith_own (ask : Request → Act Session Answer) :
    upkeepWith (.own ask []) = upkeep ask := by
  unfold upkeepWith upkeep
  rw [maybeConnectWith_own]
  rfl

/-! ### The ticker -/

/-- The ticker takes a step. -/
def ticking (ticker : Ticker) (s : Session) : Session :=
  { s with pacer := { s.pacer with ticker } }

/-- The ticker has begun to wait, for `x` seconds by the clock. -/
structure Arms (x : Float) (s t : Session) : Prop where
  link : t.link = s.link
  network : t.network = s.network
  pacer : t.pacer = (s.ticking t.pacer.ticker).pacer
  now : t.loop.now = s.loop.now
  timers : t.loop.timers = s.loop.timers ++ [⟨s.loop.now + x, .ticker⟩]
  /-- One that has been cancelled meanwhile is to run at once. -/
  ready : t.loop.ready = s.loop.ready ∨ t.loop.ready = s.loop.ready ++ [.ticker]
  trace : t.trace = s.trace.record (.wait s.interval s.loop.now)

/-- When it has ticked the ticker begins to wait, or fails because a timer cannot be set to
the interval. -/
theorem awaitTick_cases (s : Session) :
    (s.interval.toFloat? = none ∧ awaitTick s = .ok () (s.ticking .failed)) ∨
    ∃ x t, s.interval.toFloat? = some x ∧ awaitTick s = .ok () t ∧ Arms x s t := by
  unfold awaitTick
  rw [get_bind_apply]
  unfold Act.rescue
  rw [bind_apply, arm_apply]
  cases hx : s.interval.toFloat? with
  | none => exact .inl ⟨rfl, rfl⟩
  | some x =>
    refine .inr ⟨x, ?_⟩
    cases ht : s.pacer.ticker with
    | cancelling => exact ⟨_, rfl, rfl, rfl, rfl, rfl, rfl, rfl, .inr rfl, rfl⟩
    | _ => exact ⟨_, rfl, rfl, rfl, rfl, rfl, rfl, rfl, .inl rfl, rfl⟩

end Session
end DiagnosticWatch
