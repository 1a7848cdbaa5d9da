/-
# What the acts of a session preserve

One walk through the acts of the link and the pacer, for whatever may hold of
sessions. An act preserves `P`, and ends with faults as `Q` says, if so does
each thing that it does at once and each act that it is made of. What an act
rests on is a structure with a field for each of these: the calling of
listeners (`Session.Attends`), writing (`Session.Speaks`), handling what was
received (`Session.Handles`, `Session.Looks`), setting out (`Session.SetsOut`),
pacing (`Session.Paces`) and answering requests (`Session.Answering`).

What goes on through every stroke of the link (`Session.Stroke`) goes on
through all of its acts but the setting out (`Session.Outlasts`). What tells
more apart has proofs of its own for some acts, and the walk for the others.

Key definitions: `Session.Attended`, `Session.Stroke`, `Session.Outlasts`,
`Session.Handles`, `Session.PacerStroke`, `Session.Paces`, `Session.Answering`.
Key theorems: `Session.preserves_disconnect`, `Session.preserves_connect`,
`Session.preserves_drain`, `Session.preserves_tick`,
`Session.preserves_paceTick`, `Session.preserves_answer`.
-/
import DiagnosticWatch.Proofs.Session.Steps

namespace DiagnosticWatch

/-- Whether an event is no more than the call of a listener, an answer to it, or a log. -/
def Event.isTalk : Event → Bool
  | .log .. | .state .. | .change .. | .nested .. => true
  | _ => false

/-- Whether the link tells the event without anything else happening at once. -/
def Event.isSaid : Event → Bool
  | .write .. | .unsent .. | .asked .. | .looked _ .gone => true
  | e => e.isTalk

/-- Whether the event is one of a tick of the pacer, or a log. -/
def Event.isPacing : Event → Bool
  | .pacing | .upkept _ | .probe .. | .retry .. | .log .. => true
  | _ => false

theorem Event.isSaid_of_isTalk {e : Event} (h : e.isTalk = true) : e.isSaid = true := by
  cases e <;> first | rfl | cases h

/-- Whether a request is something that the peer does. -/
def Request.isPeers : Request → Bool
  | .data .. | .endOfInput _ | .lose .. => true
  | _ => false

namespace Session

open Act

variable {A B K : Request → Prop} {P : Session → Prop} {Q : Fault → Session → Prop}
  {s t u : Session} {α : Type} {ask : Request → Act Session Answer}

/-- The scripts of the listeners of the session are within `A`. -/
structure Attended (A : Request → Prop) (s : Session) : Prop where
  life : ∀ l ∈ s.link.life.listeners, l.Within A
  signal : ∀ l ∈ s.link.signal.listeners, l.Within A

theorem Scripted.attended (hs : s.Scripted A) : s.Attended A :=
  ⟨hs.life, hs.signal⟩

/-- Other sessions have the same listeners. -/
theorem Attended.congr (hs : s.Attended A)
    (life : t.link.life.listeners = s.link.life.listeners)
    (signal : t.link.signal.listeners = s.link.signal.listeners) : t.Attended A where
  life := by
    rw [life]
    exact hs.life
  signal := by
    rw [signal]
    exact hs.signal

theorem Attended.congr_link (hs : s.Attended A) (h : t.link = s.link) : t.Attended A :=
  hs.congr (by rw [h]) (by rw [h])

theorem Attended.left (hs : s.Attended A) : s.left.Attended A := by
  unfold Session.left parted closedHeld
  split <;> split <;> exact { hs with }

theorem Attended.forgotten (hs : s.Attended A) : s.forgotten.Attended A := by
  unfold Session.forgotten
  split <;> exact { hs with }

theorem Attended.marked (hs : s.Attended A) : s.marked.Attended A :=
  hs.congr rfl (ChangeSignal.mark_listeners _ _)

theorem preserves_tell {e : Event} (h : P s → P (s.telling e)) : Preserves P Q (tell e) s :=
  preserves_of_ok (tell_apply e s) h

theorem preserves_tellOfHeld {event : Nat → Event}
    (h : ∀ i, s.link.writesTo = some i → P s → P (s.telling (event i))) :
    Preserves P Q (tellOfHeld event) s := by
  unfold tellOfHeld
  refine .get ?_
  split
  · exact preserves_tell (h _ ‹_›)
  · exact .pure () s

/-! ### Calling listeners -/

/-- It goes on through talk and through the requests of listeners, whose scripts are within `A`
where it holds; and faults can be raised and caught. -/
structure Attends (A : Request → Prop) (P : Session → Prop) (Q : Fault → Session → Prop)
    (ask : Request → Act Session Answer) : Prop where
  talk : ∀ {s} {e : Event}, e.isTalk = true → P s → P (s.telling e)
  attended : ∀ {s}, P s → s.Attended A
  raised : ∀ {s} {e : Fault}, e.isOrdinary = true → P s → Q e s
  caught : ∀ {s} {e : Fault}, e.isOrdinary = true → Q e s → P s
  asks : ∀ q, Request.Within A q → ∀ s, Preserves P Q (ask q) s

section Attends

variable (h : Attends A P Q ask)
include h

/-- What a script asks may also be of another kind than what listeners ask. -/
theorem preserves_play (hb : ∀ q, Request.Within B q → ∀ s, Preserves P Q (ask q) s)
    {script : List (Reaction Request)} (hs : Script.Within B script) (s : Session) :
    Preserves P Q (Script.run Request.name ask script) s :=
  preserves_script (fun _ _ hv => h.raised rfl hv) (fun _ _ he hq => h.caught he hq)
    (fun _ _ _ hv => h.talk rfl hv) script s fun q hq => hb q (hs q hq)

theorem preserves_call {l : Listener Request} (hl : l.Within A) (s : Session) :
    Preserves P Q (l.perform Request.name ask) s :=
  preserves_listener (preserves_play h h.asks (hl s.trace) s)

theorem preserves_round {call : Listener Request → Act Session Unit} {complaint : String}
    {ls : List (Listener Request)} (hl : ∀ l ∈ ls, ∀ s, Preserves P Q (call l) s) (s : Session) :
    Preserves P Q (announce call complaint ls) s :=
  preserves_announce (P := P) (fun _ _ he hq => h.caught he hq) (fun _ hv => h.talk rfl hv) ls s hl

theorem preserves_tellState (old new : Phase) (s : Session) :
    Preserves P Q (tellState ask old new s.link.life.listeners) s := by
  refine .of_holds fun hs => preserves_round h (fun l hl t => ?_) s
  unfold callState
  refine .bind (preserves_tell (h.talk rfl)) fun _ u => .ite ?_ (.pure () u)
  exact preserves_call h ((h.attended hs).life l hl) u

theorem preserves_tellChange (s : Session) :
    Preserves P Q (tellChange ask s.link.signal.listeners) s := by
  refine .of_holds fun hs => preserves_round h (fun l hl t => ?_) s
  unfold callChange
  refine .get (.bind (preserves_tell (h.talk rfl)) fun _ u => ?_)
  exact preserves_call h ((h.attended hs).signal l hl) u

theorem preserves_sayGoodbye (old : Phase) (s : Session) :
    Preserves P Q (sayGoodbye ask old s.link.life.listeners) s := by
  unfold sayGoodbye
  refine .ite ?_ (.pure () s)
  exact .bind (preserves_tellState h old .disconnected s) fun _ t => preserves_tell (h.talk rfl)

theorem preserves_moveTo {target : Phase}
    (granted : s.phase.canBecome target = true → P s → P (s.movedTo target))
    (refused : s.phase.canBecome target = false → P s →
      Q (.badTransition s.phase target) (s.telling (.refused s.phase target))) :
    Preserves P Q (moveTo ask target) s := by
  cases hc : s.phase.canBecome target with
  | true =>
    exact .after (granted hc) (preserves_tellState h s.phase target (s.movedTo target))
      (moveTo_apply hc)
  | false => exact preserves_of_error (moveTo_of_not hc) (refused hc)

theorem preserves_fire (signals : P s → P s.signalled) : Preserves P Q (fire ask) s :=
  .after signals (preserves_tellChange h s.signalled) (fire_apply ask s)

/-- Only a change that is marked is signalled upon a poll. -/
theorem preserves_poll (signals : s.link.signal.dirty = true → P s → P s.signalled) :
    Preserves P Q (poll ask) s := by
  unfold poll
  refine .get ?_
  split
  · rename_i hdue
    have hdirty : s.link.signal.dirty = true := (Bool.and_eq_true_iff.mp hdue).1
    exact .bind (preserves_fire h (signals hdirty)) fun _ t => .pure true t
  · exact .pure false s

end Attends

/-! ### Writing -/

/-- It goes on through what is written, or cannot be, and through logs; and faults can be raised
and caught. -/
structure Speaks (P : Session → Prop) (Q : Fault → Session → Prop) : Prop where
  written : ∀ {s} i bytes, P s → P (s.telling (.write i bytes))
  unsent : ∀ {s} i fault, P s → P (s.telling (.unsent i fault))
  log : ∀ {s} level text, P s → P (s.telling (.log level text))
  raised : ∀ {s} {e : Fault}, e.isOrdinary = true → P s → Q e s
  caught : ∀ {s} {e : Fault}, e.isOrdinary = true → Q e s → P s

section Speaks

variable (h : Speaks P Q)
include h

theorem preserves_write (bytes : List UInt8) (s : Session) : Preserves P Q (write bytes) s := by
  unfold write
  refine .get ?_
  split
  · refine .bind (preserves_tellOfHeld fun i _ => h.unsent i _) fun _ t => ?_
    exact .throw (h.raised rfl)
  · exact preserves_tellOfHeld fun i _ => h.written i _

theorem preserves_takeLeave (s : Session) : Preserves P Q takeLeave s := by
  unfold takeLeave
  refine .get (.ite ?_ (.pure () s))
  exact .rescue (fun e _ hc => h.caught (isOrdinary_of_isWriteFailure e hc))
    (preserves_write h _ s) fun e t => preserves_tell (h.log _ _)

theorem preserves_writeBare (code : Int) (s : Session) : Preserves P Q (do
    match Frame.encode code [] with
    | .ok bytes => write bytes
    | .error e => throw (.encode e)
    return true : Act Session Bool) s := by
  cases Frame.encode code [] with
  | ok bytes => exact .bind (preserves_write h bytes s) fun _ t => .pure true t
  | error e => exact .bind (.throw (h.raised rfl)) fun _ t => .pure true t

theorem preserves_send (drop : ∀ s, Preserves P Q (disconnect ask false) s) (code : Int)
    (s : Session) : Preserves P Q (send ask code) s := by
  unfold send
  refine .get (.ite (.pure false s) ?_)
  refine .rescue (fun e _ hc => h.caught (isOrdinary_of_isWriteFailure e hc))
    (preserves_writeBare h code s) fun e t => .bind (preserves_tell (h.log _ _)) fun _ u => ?_
  exact .bind (drop u) fun _ v => .pure false v

end Speaks

/-! ### Handling what was received -/

/-- It goes on where a frame is handled: when it is taken out, logs are made, a report is received,
a sign of life is sent and the connection is dropped. -/
structure Handles (P : Session → Prop) (Q : Fault → Session → Prop)
    (ask : Request → Act Session Answer) : Prop where
  log : ∀ {s} level text, P s → P (s.telling (.log level text))
  takes : ∀ {s i c f rest}, s.link.readsFrom = some i → s.network.connections[i]? = some c →
    c.receiver.inbox.next = (.ok (some f), rest) → P s → P (s.tookOut i f rest)
  report : ∀ {s} report, s.link.readsFrom ≠ none → P s → P (s.stored report).marked
  alive : ∀ s, Preserves P Q (sendAlive ask) s
  drop : ∀ notify s, Preserves P Q (disconnect ask notify) s

section Handles

variable (h : Handles P Q ask)
include h

theorem preserves_handle (frame : Frame) (hr : s.link.readsFrom ≠ none) :
    Preserves P Q (handle ask frame) s := by
  unfold handle
  split
  · exact .bind (h.alive s) fun _ t => .pure _ t
  · split
    · exact .pure _ s
    · rename_i report _
      -- To log that the report is stored and to mark the change are told in either order.
      refine preserves_of_ok (a := .ok ()) (v := (s.stored report).marked.telling (.log .debug
        s!"Stored {report.diagnostics.length} diagnostics for {report.path.text}")) rfl fun hs => ?_
      exact h.log _ _ (h.report report hr hs)
  · refine .bind (preserves_tell (h.log _ _)) fun _ t => ?_
    exact .bind (h.drop false t) fun _ u => .pure _ u
  · exact .bind (preserves_tell (h.log _ _)) fun _ t => .pure _ t

theorem preserves_giveUp (e : WireError) (s : Session) : Preserves P Q (giveUp ask e) s :=
  .bind (preserves_tell (h.log _ _)) fun _ t => h.drop true t

/-- The induction is on the bound: what follows a frame has one frame less to handle. -/
theorem preserves_drain (bound : Nat) (s : Session) : Preserves P Q (drain ask bound) s := by
  induction bound generalizing s with
  | zero => exact .pure () s
  | succ bound ih =>
    rcases drain_cases ask bound s with he | ⟨e, he⟩ | ⟨i, c, f, rest, hi, hc, hn, he⟩
    · exact preserves_of_ok he id
    · exact .after id (preserves_giveUp h e s) he
    · have hr : (s.tookOut i f rest).link.readsFrom ≠ none := by
        show s.link.readsFrom ≠ none
        simp [hi]
      refine .after (h.takes hi hc hn) (.bind (preserves_handle h f hr) fun r t => ?_) he
      cases r with
      | ok => exact ih t
      | error e => exact preserves_giveUp h e t

theorem preserves_drainAll (s : Session) : Preserves P Q (drainAll ask) s := by
  unfold drainAll
  refine .get ?_
  split
  · exact preserves_drain h _ s
  · exact .pure () s

end Handles

/-- When the last traffic was is noted. -/
def noting (time : Float) (s : Session) : Session :=
  { s with link := { s.link with lastTraffic := time } }

/-- Besides, it goes on whatever a tick finds when it looks at the connection. -/
structure Looks (P : Session → Prop) (Q : Fault → Session → Prop)
    (ask : Request → Act Session Answer) : Prop extends Handles P Q ask where
  gone : ∀ {s i}, s.link.writesTo = some i → P s → P (s.telling (.looked i .gone))
  silent : ∀ {s i}, s.link.writesTo = some i →
    s.link.settings.keepAliveInterval.below (s.loop.now - s.link.lastTraffic) = true → P s →
    P ((s.telling (.looked i .silent)).noting s.loop.now)
  unheld : ∀ {s}, s.link.writesTo = none → s.link.readsFrom ≠ none → P s → P (s.noting s.loop.now)
  calm : ∀ {s i}, s.link.writesTo = some i →
    s.link.settings.keepAliveInterval.below (s.loop.now - s.link.lastTraffic) = false → P s →
    P (s.telling (.looked i .calm))

/-- A tick that finds a silence notes the time. -/
theorem preserves_silence (h : Looks P Q ask) (hr : s.link.readsFrom ≠ none)
    (hs : s.link.settings.keepAliveInterval.below (s.loop.now - s.link.lastTraffic) = true)
    {next : Act Session α} (hn : ∀ t, Preserves P Q next t) : Preserves P Q (do
      tellOfHeld (.looked · .silent)
      onLink fun l => { l with lastTraffic := s.loop.now }
      next) s := by
  cases hw : s.link.writesTo with
  | none => exact .after (h.unheld hw hr) (hn _) (bind_of_ok (tellOfHeld_of_none hw _))
  | some i => exact .after (h.silent hw hs) (hn _) (bind_of_ok (tellOfHeld_apply hw _))

theorem preserves_tick (h : Looks P Q ask) (s : Session) : Preserves P Q (tick ask) s := by
  unfold tick
  refine .get ?_
  split
  · exact .pure () s
  split
  · refine .bind (preserves_tellOfHeld fun i hi => h.gone hi) fun _ t => ?_
    split <;> exact .bind (preserves_tell (h.log _ _)) fun _ u => h.drop false u
  rename_i hup
  split
  · rename_i hsilent
    obtain ⟨-, r, hr, -⟩ := receiver_of_isUp (by simpa using hup)
    obtain ⟨i, c, hi, -⟩ := receiver?_eq_some.mp hr
    refine preserves_silence h (by simp [hi]) hsilent fun t => ?_
    exact .bind (h.alive t) fun _ u => .ite (preserves_drainAll h.toHandles u) (.pure () u)
  · rename_i hcalm
    have hcalm := Bool.eq_false_iff.mpr hcalm
    refine .bind (preserves_tellOfHeld fun i hi => h.calm hi hcalm) fun _ t => ?_
    exact preserves_drainAll h.toHandles t

/-! ### The strokes of the link -/

/-- What the link does to a session at once, but for setting out. -/
inductive Stroke : Session → Session → Prop
  | tells (s : Session) {e : Event} (h : e.isSaid = true) : Stroke s (s.telling e)
  | callsOff {s t : Session} (h : callOff s = .ok () t) : Stroke s t
  | leaves (s : Session) : Stroke s s.left
  | forgets (s : Session) : Stroke s s.forgotten
  | signals (s : Session) : Stroke s s.signalled
  | stores (s : Session) (report : Report) : Stroke s (s.stored report)
  | marks (s : Session) : Stroke s s.marked
  | takesOut {s : Session} {i : Nat} {c : Connection} {f : Frame} {rest : Inbox}
      (reads : s.link.readsFrom = some i) (there : s.network.connections[i]? = some c)
      (next : c.receiver.inbox.next = (.ok (some f), rest)) : Stroke s (s.tookOut i f rest)
  /-- A tick finds that there was no traffic for too long. -/
  | silent {s : Session} {i : Nat} (held : s.link.writesTo = some i)
      (long : s.link.settings.keepAliveInterval.below (s.loop.now - s.link.lastTraffic) = true) :
      Stroke s ((s.telling (.looked i .silent)).noting s.loop.now)
  /-- The same where there is no connection to write to. -/
  | unheld {s : Session} (silenced : s.link.writesTo = none) (reads : s.link.readsFrom ≠ none) :
      Stroke s (s.noting s.loop.now)
  | calm {s : Session} {i : Nat} (held : s.link.writesTo = some i)
      (short : s.link.settings.keepAliveInterval.below (s.loop.now - s.link.lastTraffic) = false) :
      Stroke s (s.telling (.looked i .calm))

/-- It goes on through every stroke of the link and through the requests of listeners, whose scripts
are within `A` where it holds; and faults can be raised and caught. -/
structure Outlasts (A : Request → Prop) (P : Session → Prop) (Q : Fault → Session → Prop)
    (ask : Request → Act Session Answer) : Prop where
  stroke : ∀ {s t}, Stroke s t → P s → P t
  attended : ∀ {s}, P s → s.Attended A
  raised : ∀ {s} {e : Fault}, e.isOrdinary = true → P s → Q e s
  caught : ∀ {s} {e : Fault}, e.isOrdinary = true → Q e s → P s
  asks : ∀ q, Request.Within A q → ∀ s, Preserves P Q (ask q) s

section Outlasts

variable (h : Outlasts A P Q ask)
include h

theorem Outlasts.tells {e : Event} (he : e.isSaid = true) : P s → P (s.telling e) :=
  h.stroke (.tells s he)

theorem Outlasts.attends : Attends A P Q ask where
  talk he := h.tells (Event.isSaid_of_isTalk he)
  attended := h.attended
  raised := h.raised
  caught := h.caught
  asks := h.asks

theorem Outlasts.speaks : Speaks P Q where
  written _ _ := h.tells rfl
  unsent _ _ := h.tells rfl
  log _ _ := h.tells rfl
  raised := h.raised
  caught := h.caught

theorem preserves_callOff (s : Session) : Preserves P Q callOff s := by
  obtain ⟨t, ht, -⟩ := callOff_keeps s
  exact preserves_of_ok ht (h.stroke (.callsOff ht))

theorem preserves_put (report : Report) (s : Session) : Preserves P Q (put report) s :=
  .bind (preserves_of_ok (v := s.stored report) rfl (h.stroke (.stores s report))) fun _ _ =>
    preserves_tell (h.tells rfl)

theorem preserves_forget (s : Session) : Preserves P Q (forget ask) s := by
  refine .after (h.stroke (.forgets s)) ?_ (forget_apply ask s)
  exact .ite (.pure () _) (preserves_tellChange h.attends s.forgotten)

/-- What the link does when it has left its connection. -/
theorem preserves_afterLeaving (s : Session) : Preserves P Q
    (sayGoodbye ask s.phase s.link.life.listeners >>= fun _ => forget ask) s.left := by
  rw [← left_listeners]
  exact .bind (preserves_sayGoodbye h.attends s.phase s.left) fun _ t => preserves_forget h t

theorem preserves_leave (s : Session) : Preserves P Q (leave ask) s :=
  .after (h.stroke (.leaves s)) (preserves_afterLeaving h s) (leave_apply ask s)

theorem preserves_disconnect (notify : Bool) (s : Session) :
    Preserves P Q (disconnect ask notify) s := by
  rw [disconnect_eq]
  refine .bind (preserves_callOff h s) fun _ t => ?_
  split
  · exact .bind (preserves_takeLeave h.speaks t) fun _ u => preserves_leave h u
  · exact preserves_leave h t

theorem Outlasts.sends (code : Int) (s : Session) : Preserves P Q (send ask code) s :=
  preserves_send h.speaks (preserves_disconnect h false) code s

theorem Outlasts.looks : Looks P Q ask where
  log _ _ := h.tells rfl
  takes hi hc hn := h.stroke (.takesOut hi hc hn)
  report report _ hs := h.stroke (.marks _) (h.stroke (.stores _ report) hs)
  alive := h.sends _
  drop := preserves_disconnect h
  gone _ := h.tells rfl
  silent hw hs := h.stroke (.silent hw hs)
  unheld hw hr := h.stroke (.unheld hw hr)
  calm hw hs := h.stroke (.calm hw hs)

theorem Outlasts.poll (s : Session) : Preserves P Q (poll ask) s :=
  preserves_poll h.attends fun _ => h.stroke (.signals s)

end Outlasts

/-! ### Setting out -/

/-- It goes on when the link sets out to connect, and when that is refused. -/
structure SetsOut (P : Session → Prop) (Q : Fault → Session → Prop) (host : String) (port : Number) :
    Prop where
  sets : ∀ {s : Session}, s.phase = .disconnected → P s → P (s.movedTo .connecting)
  refuses : ∀ {s : Session}, P s →
    Q (.badTransition s.phase .connecting) (s.telling (.refused s.phase .connecting))
  dials : ∀ {s : Session}, P s → P (s.dialling host port)

section SetsOut

variable {host : String} {port : Number}

/-- Where there is something to drop, the link drops it first. -/
theorem preserves_connect_of (raised : P s → Q .noLoop s)
    (out : s.phase = .disconnected → Preserves P Q (setOut ask host port) s)
    (again : s.phase ≠ .disconnected →
      Preserves P Q (disconnect ask false >>= fun _ => setOut ask host port) s) :
    Preserves P Q (connect ask host port) s := by
  cases hr : s.loop.running with
  | true =>
    have happly := connect_apply ask host port hr
    by_cases hp : s.phase = .disconnected
    · exact .after id (out hp) (happly.trans (if_pos hp))
    · exact .after id (again hp) (happly.trans (if_neg hp))
  | false =>
    refine preserves_of_error (v := s) (e := .noLoop) ?_ raised
    unfold connect
    rw [get_bind_apply, hr]
    rfl

variable (h : Outlasts A P Q ask)
include h

/-- Where the link is disconnected, it is not refused. -/
theorem preserves_setOut_of_down (hp : s.phase = .disconnected)
    (sets : P s → P (s.movedTo .connecting))
    (dials : ∀ {t : Session}, P t → P (t.dialling host port)) :
    Preserves P Q (setOut ask host port) s := by
  have hcan : s.phase.canBecome .connecting = true := by rw [hp]; rfl
  have hmove : Preserves P Q (moveTo ask .connecting) s :=
    preserves_moveTo h.attends (fun _ => sets) fun hc => nomatch hcan.symm.trans hc
  refine .bind hmove fun _ t => .bind (preserves_tell (h.tells rfl)) fun _ u => ?_
  exact preserves_of_ok (v := u.dialling host port) rfl dials

theorem preserves_setOut (ho : SetsOut P Q host port) (s : Session) :
    Preserves P Q (setOut ask host port) s := by
  by_cases hp : s.phase = .disconnected
  · exact preserves_setOut_of_down h hp (ho.sets hp) ho.dials
  · exact preserves_of_error (setOut_of_not ask host port hp) ho.refuses

theorem preserves_connect (ho : SetsOut P Q host port) (s : Session) :
    Preserves P Q (connect ask host port) s :=
  preserves_connect_of (h.raised rfl) (fun _ => preserves_setOut h ho s) fun _ =>
    .bind (preserves_disconnect h false s) fun _ t => preserves_setOut h ho t

end SetsOut

/-! ### The pacer -/

/-- What the pacer does to a session at once, but that it begins or ends a tick. -/
inductive PacerStroke : Session → Session → Prop
  | tells (s : Session) {e : Event} (h : e.isPacing = true) : PacerStroke s (s.telling e)
  /-- It makes a note. -/
  | notes (s : Session) {pacer : Pacer} (settings : pacer.settings = s.pacer.settings)
      (busy : pacer.busy = s.pacer.busy) : PacerStroke s { s with pacer }

/-- It goes on through every stroke of the pacer; and faults can be raised and caught. -/
structure Upkeeps (P : Session → Prop) (Q : Fault → Session → Prop) : Prop where
  stroke : ∀ {s t}, PacerStroke s t → P s → P t
  raised : ∀ {s} {e : Fault}, e.isOrdinary = true → P s → Q e s
  caught : ∀ {s} {e : Fault}, e.isOrdinary = true → Q e s → P s

section Upkeeps

variable (h : Upkeeps P Q)
include h

theorem Upkeeps.tell {e : Event} (he : e.isPacing = true) (s : Session) : Preserves P Q (tell e) s :=
  preserves_tell (h.stroke (.tells s he))

theorem Upkeeps.note {f : Pacer → Pacer} (hs : (f s.pacer).settings = s.pacer.settings)
    (hb : (f s.pacer).busy = s.pacer.busy) : Preserves P Q (onPacer f) s :=
  preserves_of_ok (modify_apply _ s) (h.stroke (.notes s hs hb))

theorem preserves_laidDown (s : Session) : Preserves P Q laidDown s := by
  unfold laidDown
  refine .get (.bind (h.note rfl rfl) fun _ t => .bind (h.tell rfl t) fun _ u => ?_)
  split
  · exact .pure _ u
  · exact .throw (h.raised rfl)

variable {calls : Calls} (probe : ∀ s, Preserves P Q calls.probe s)
  (connect : ∀ s, P s → ∀ t,
    Preserves P Q (calls.connect s.pacer.settings.host s.pacer.settings.port) t)
include probe connect

theorem preserves_maybeConnectWith (s : Session) : Preserves P Q (maybeConnectWith calls) s := by
  unfold maybeConnectWith
  refine .get (.of_holds fun hs => .ite ?_ (.pure () s))
  refine .bind (h.note rfl rfl) fun _ t => .bind ?_ fun yes u => .ite ?_ (.pure () u)
  · exact .rescue (fun _ _ => h.caught) (probe t) fun e u =>
      .bind (h.tell rfl u) fun _ v => .pure false v
  · exact .bind (h.note rfl rfl) fun _ v => .bind (h.tell rfl v) fun _ w => connect s hs w

theorem preserves_upkeepWith (tick : ∀ s, Preserves P Q calls.tick s) (s : Session) :
    Preserves P Q (upkeepWith calls) s := by
  refine .bind (tick s) fun _ t => .get (.bind (h.tell rfl t) fun _ u => ?_)
  exact .ite (preserves_maybeConnectWith h probe connect u) (.pure () u)

omit probe connect

/-- The ticker begins to wait, or fails. -/
theorem preserves_awaitTick (arms : ∀ {s t x}, Arms x s t → P s → P t) (s : Session) :
    Preserves P Q awaitTick s := by
  rcases awaitTick_cases s with ⟨-, e⟩ | ⟨x, t, -, e, harms⟩
  · exact preserves_of_ok e (h.stroke (.notes s rfl rfl))
  · exact preserves_of_ok e (arms harms)

end Upkeeps

/-- Besides, it goes on through the begin and the end of a tick, and when the ticker is made ready or
its timer is disarmed. A fault is as good where the session is. -/
structure Schedules (P : Session → Prop) (Q : Fault → Session → Prop) : Prop
    extends Upkeeps P Q where
  carried : ∀ {s t} {e : Fault}, (P s → P t) → Q e s → Q e t
  busies : ∀ {s : Session} busy, P s → P { s with pacer := { s.pacer with busy } }
  readies : ∀ {s : Session}, P s →
    P { s with loop := { s.loop with ready := s.loop.ready ++ [.ticker] } }
  disarms : ∀ {s : Session}, P s → P (s.disarmed .ticker)

section Schedules

variable (h : Schedules P Q)
include h

theorem preserves_exclusively {act : Act Session α} (ha : ∀ s, Preserves P Q act s) (s : Session) :
    Preserves P Q (exclusively act) s :=
  .bind (preserves_of_ok (modify_apply _ s) (h.busies true)) fun _ t =>
    .ensuring (ha t) (fun _ => h.busies false) fun _ _ => h.carried (h.busies false)

theorem preserves_disarmTicker (s : Session) : Preserves P Q (disarm .ticker) s :=
  preserves_of_ok (disarm_apply .ticker s) h.disarms

theorem preserves_enqueueTicker (s : Session) : Preserves P Q (enqueue .ticker) s :=
  preserves_of_ok (onLoop_apply _ s) h.readies

theorem preserves_startTicker (s : Session) : Preserves P Q startTicker s := by
  unfold startTicker
  refine .get (.ite ?_ (.pure () s))
  refine .bind (h.note rfl rfl) fun _ t => ?_
  exact .bind (preserves_enqueueTicker h t) fun _ u => h.tell rfl u

theorem preserves_cancelTicker (s : Session) : Preserves P Q cancelTicker s := by
  unfold cancelTicker
  refine .get ?_
  split
  · exact .bind (h.note rfl rfl) fun _ t => .pure true t
  · exact .bind (h.note rfl rfl) fun _ t => .pure true t
  · refine .bind (h.note rfl rfl) fun _ t => ?_
    exact .bind (preserves_enqueueTicker h t) fun _ u => .pure true u
  · exact .pure true s
  · exact .pure false s
  · exact .pure false s
  · exact .throw (h.raised rfl)

theorem preserves_stop (drop : ∀ s, Preserves P Q (disconnect ask true) s) (s : Session) :
    Preserves P Q (stop ask) s := by
  have hstop : ∀ s, Preserves P Q (do
      onPacer fun p => { p with ticker := .absent }
      disarm .ticker
      exclusively do
        onPacer fun p => { p with stopped := true }
        disconnect ask true
      log .info "Tick scheduler stopped" : Act Session Unit) s := fun s => by
    refine .bind (h.note rfl rfl) fun _ t => .bind (preserves_disarmTicker h t) fun _ u => ?_
    refine .bind (preserves_exclusively h (fun v => ?_) u) fun _ v => h.tell rfl v
    exact .bind (h.note rfl rfl) fun _ w => drop w
  unfold stop
  exact .get (.ite (.bind (.throw (h.raised rfl)) fun _ t => hstop t) (hstop s))

end Schedules

/-- Besides, it goes on through what the pacer makes the link do. -/
structure Paces (P : Session → Prop) (Q : Fault → Session → Prop)
    (ask : Request → Act Session Answer) : Prop extends Schedules P Q where
  tick : ∀ s, Preserves P Q (tick ask) s
  connect : ∀ s, P s → ∀ t,
    Preserves P Q (connect ask s.pacer.settings.host s.pacer.settings.port) t
  poll : ∀ s, Preserves P Q (poll ask) s
  drop : ∀ notify s, Preserves P Q (disconnect ask notify) s

section Paces

variable (h : Paces P Q ask)
include h

theorem preserves_maybeConnect (s : Session) : Preserves P Q (maybeConnect ask) s := by
  have hprobe : ∀ s, Preserves P Q (Calls.own ask []).probe s := preserves_laidDown h.toUpkeeps
  rw [← maybeConnectWith_own]
  exact preserves_maybeConnectWith h.toUpkeeps hprobe h.connect s

theorem preserves_upkeep (s : Session) : Preserves P Q (upkeep ask) s := by
  have hprobe : ∀ s, Preserves P Q (Calls.own ask []).probe s := preserves_laidDown h.toUpkeeps
  rw [← upkeepWith_own]
  exact preserves_upkeepWith h.toUpkeeps hprobe h.connect h.tick s

theorem preserves_tickOnce (s : Session) : Preserves P Q (tickOnce ask) s := by
  refine .bind (h.tell rfl s) fun _ t => .bind ?_ fun _ u => .bind (h.poll u) fun _ v => .pure () v
  refine .rescue (fun _ _ => h.caught) (preserves_upkeep h t) fun e u => ?_
  exact .bind (h.tell rfl u) fun _ v => h.drop false v

theorem preserves_paceTick (s : Session) : Preserves P Q (paceTick ask) s := by
  unfold paceTick
  refine .get (.ite (.bind (h.tell rfl s) fun _ t => .pure false t) ?_)
  refine preserves_exclusively h.toSchedules (fun t => .get (.ite (.pure false t) ?_)) s
  exact .bind (preserves_tickOnce h t) fun _ u => .pure true u

/-- The ticker ticks, and waits. -/
theorem preserves_runTicker (arms : ∀ {s t x}, Arms x s t → P s → P t) (s : Session) :
    Preserves P Q (runTicker ask) s := by
  have hticks : ∀ s, Preserves P Q (do
      onPacer fun p => { p with ticker := .ticking }
      let _ ← paceTick ask
      awaitTick : Act Session Unit) s := fun s =>
    .bind (h.note rfl rfl) fun _ t => .bind (preserves_paceTick h t) fun _ u =>
      preserves_awaitTick h.toUpkeeps arms u
  unfold runTicker
  refine .get ?_
  split
  · exact hticks s
  · exact hticks s
  · exact .bind (h.note rfl rfl) fun _ t => preserves_disarmTicker h.toSchedules t
  · exact .pure () s

end Paces

/-! ### Requests -/

theorem admitted_refl (ls : List (Listener Request)) : Admitted A ls ls :=
  fun _ h => .inl h

theorem admitted_append {ls : List (Listener Request)} {l : Listener Request}
    (h : l.Within A) : Admitted A ls (ls ++ [l]) := by
  intro l' hl
  rcases List.mem_append.mp hl with hl | hl
  · exact .inl hl
  · rw [List.mem_singleton.mp hl]
    exact .inr h

theorem admitted_remove (serial : Nat) (ls : List (Listener Request)) :
    Admitted A ls (Listener.remove serial ls) :=
  fun _ h => .inl (List.mem_of_mem_eraseP h)

/-- What the peer does changes the receiver of a connection, and is logged. -/
theorem preserves_ofPeer
    (receives : ∀ {s : Session} i (f : Receiver → Receiver), P s → P { s with
      network := { s.network with
        connections := s.network.connections.modify i fun c => { c with receiver := f c.receiver } } })
    (log : ∀ {s} level text, P s → P (s.telling (.log level text)))
    {request : Request} (h : request.isPeers = true) (s : Session) :
    Preserves P Q (answer ask request) s := by
  have hreceiver : ∀ (i : Option Nat) (f : Receiver → Receiver) (events : List Event),
      (∀ e ∈ events, ∃ level text, e = .log level text) →
      Preserves P Q (onReceiver i f events) s := by
    intro i f events hevents
    unfold onReceiver
    refine .get (.get (.ite ?_ (.pure () s)))
    refine .bind (preserves_of_ok (modify_apply _ s) (receives _ f)) fun _ t => ?_
    refine preserves_forM (fun e he u => ?_) t
    obtain ⟨level, text, rfl⟩ := hevents e he
    exact preserves_tell (log level text)
  cases request with
  | data bytes i => exact .bind (hreceiver i _ [] (by simp)) fun _ t => .pure _ t
  | endOfInput i =>
    exact .bind (hreceiver i _ _ (by simp [Receiver.endEvents])) fun _ t => .pure _ t
  | lose error i =>
    refine .bind (hreceiver i _ _ ?_) fun _ t => .pure _ t
    cases error <;> simp [Receiver.loseEvents]
  | _ => cases h

/-- It goes on through the acts by which requests of the kind `K` are answered, and the scripts that
they bring are within `A`. A fault is as good where the session is. -/
structure Answering (A K : Request → Prop) (P : Session → Prop) (Q : Fault → Session → Prop)
    (ask : Request → Act Session Answer) : Prop where
  raised : ∀ {s} {e : Fault}, e.isOrdinary = true → P s → Q e s
  carried : ∀ {s t} {e : Fault}, (P s → P t) → Q e s → Q e t
  log : ∀ {s} level text, P s → P (s.telling (.log level text))
  unloops : ∀ {s : Session} running, P s → P { s with loop := { s.loop with running } }
  listens : ∀ {s : Session} known {life signal}, Admitted A s.link.life.listeners life →
    Admitted A s.link.signal.listeners signal → P s → P (s.listening known life signal)
  sets : ∀ {s : Session} i (f : Connection → Connection), (∀ c, (f c).receiver = c.receiver) → P s →
    P { s with network := { s.network with connections := s.network.connections.modify i f } }
  peer : ∀ q, K q → q.isPeers = true → ∀ s, Preserves P Q (answer ask q) s
  connect : ∀ host port, K (.connect host port) ∨ K (.connectUnlooped host port) → ∀ s,
    Preserves P Q (connect ask host port) s
  drop : ∀ notify s, Preserves P Q (disconnect ask notify) s
  tick : ∀ s, Preserves P Q (tick ask) s
  send : ∀ code, K (.send code) → ∀ s,
    Preserves P Q (tellOfHeld (.asked · code) >>= fun _ => send ask code) s
  put : ∀ path notes, K (.put path notes) → ∀ report s, Preserves P Q (put report) s
  marks : K .mark → ∀ {s : Session}, P s → P s.marked
  poll : ∀ s, Preserves P Q (poll ask) s
  fire : K .fire → ∀ s, Preserves P Q (fire ask) s
  pace : K .paceTick ∨ K .paceTickUnlooped → ∀ s, Preserves P Q (paceTick ask) s
  start : K .start → ∀ s, Preserves P Q startTicker s
  cancel : K .cancelTicker → ∀ s, Preserves P Q cancelTicker s

section Answering

variable (h : Answering A K P Q ask)
include h

theorem preserves_unlooped {act : Act Session α} (ha : ∀ s, Preserves P Q act s) (s : Session) :
    Preserves P Q (unlooped act) s := by
  unfold unlooped
  refine .get (.bind (preserves_of_ok (onLoop_apply _ s) (h.unloops false)) fun _ t => ?_)
  exact .ensuring (ha t) (fun _ => h.unloops _) fun _ _ => h.carried (h.unloops _)

theorem preserves_logReports (s : Session) : Preserves P Q logReports s := by
  unfold logReports
  refine .get (.ite (preserves_tell (h.log _ _)) ?_)
  refine preserves_forM (P := P) (fun report _ t => ?_) s
  refine .bind (preserves_tell (h.log _ _)) fun _ u => ?_
  exact preserves_forM (P := P) (fun d _ v => preserves_tell (h.log _ _)) u

/-- Whatever goes on through the acts goes on through a request. -/
theorem preserves_answer {request : Request} (kind : K request)
    (script : ∀ trace, Script.Within A (request.script trace)) (s : Session) :
    Preserves P Q (answer ask request) s := by
  cases request with
  | data | endOfInput | lose => exact h.peer _ kind rfl s
  | setWrites fault i | setClosing i =>
    refine .get (.bind (preserves_of_ok (modify_apply _ s) ?_) fun _ t => .pure _ t)
    exact h.sets _ _ fun _ => rfl
  | connect host port => exact .bind (h.connect host port (.inl kind) s) fun _ t => .pure _ t
  | connectUnlooped host port =>
    refine .bind (preserves_unlooped h (fun t => ?_) s) fun _ t => .pure _ t
    exact h.connect host port (.inr kind) t
  | disconnect notify => exact .bind (h.drop notify s) fun _ t => .pure _ t
  | tick => exact .bind (h.tick s) fun _ t => .pure _ t
  | send code =>
    simp only [answer]
    rw [← bind_assoc]
    exact .bind (h.send code kind s) fun _ t => .pure _ t
  | get | all | describe | interval | attempts | running => exact .get (.pure _ s)
  | put path notes =>
    simp only [answer]
    split
    · exact .bind (h.put path notes kind _ s) fun _ t => .pure _ t
    · exact .bind (.throw (h.raised rfl)) fun _ t => .pure _ t
  | logReports => exact .bind (preserves_logReports h s) fun _ t => .pure _ t
  | mark => exact preserves_of_ok (v := s.marked) (a := .nothing) rfl (h.marks kind)
  | poll => exact .bind (h.poll s) fun _ t => .pure _ t
  | fire => exact .bind (h.fire kind s) fun _ t => .pure _ t
  | subscribe name script' =>
    exact preserves_of_ok (a := .nothing) (v := s.listening _ s.link.life.listeners _) rfl
      (h.listens _ (admitted_refl _) (admitted_append script))
  | unsubscribe name =>
    simp only [answer]
    refine .get ?_
    cases Listener.latest? s.known name with
    | none => exact .pure _ s
    | some l =>
      exact preserves_of_ok (a := .nothing) (v := s.listening s.known s.link.life.listeners _) rfl
        (h.listens _ (admitted_refl _) (admitted_remove l.serial _))
  | onState name script' only =>
    exact preserves_of_ok (a := .nothing) (v := s.listening s.known _ s.link.signal.listeners) rfl
      (h.listens _ (admitted_append script) (admitted_refl _))
  | paceTick => exact .bind (h.pace (.inl kind) s) fun _ t => .pure _ t
  | paceTickUnlooped =>
    exact .bind (preserves_unlooped h (h.pace (.inr kind)) s) fun _ t => .pure _ t
  | start => exact .bind (h.start kind s) fun _ t => .pure _ t
  | cancelTicker => exact .bind (h.cancel kind s) fun _ t => .pure _ t

end Answering

end Session
end DiagnosticWatch
