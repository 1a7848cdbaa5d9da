/-
# What the link clears away when it disconnects

Whoever makes the link disconnect where the listeners ask for nothing: the
connection, the dial under way, the reports and a marked change are gone, the
state listeners have been told once if there was a connection or a dial, and
the change listeners once if there were reports (`Session.Cleared`). It does not
matter whether a change was marked, and there is nothing left to do for another
disconnect (`Session.Clears`).

Only a transport that refuses a word of farewell is in the way: the fault is
passed on, and the connection stays.

Key definitions: `Session.farewell`, `Session.Refused`, `Session.Cleared`,
`Session.Clears`.
Key theorems: `Session.clears_disconnect`, `Session.tickOnce_of_fault`,
`Session.disconnect_clears`.
-/
import DiagnosticWatch.Proofs.Session.Mute
import DiagnosticWatch.Proofs.Session.Setup

namespace DiagnosticWatch
namespace Session

open Act

variable {s t u v : Session} {α : Type} {ask : Request → Act Session Answer}
  {more words : List Event} {notify : Bool}

/-! ### Disconnecting -/

/-- What is told of the connection that is written to; nothing if there is none. -/
def held (event : Nat → Event) (s : Session) : List Event :=
  s.link.writesTo.toList.map event

theorem tellOfHeld_tells (event : Nat → Event) (s : Session) :
    tellOfHeld event s = .ok () (s.tellingAll (s.held event)) := by
  unfold tellOfHeld held
  rw [get_bind_apply]
  cases s.link.writesTo <;> rfl

/-- How the word of farewell goes, if one is asked for and the peer has not left. -/
def farewell (notify : Bool) (s : Session) : List Event :=
  if notify && s.isUp then
    match s.writeFault? with
    | none => s.held (.write · (Frame.bare .disconnect))
    | some fault => s.held (.unsent · fault) ++
        [.log .debug s!"Could not send DISCONNECT: {(Fault.write fault).message}"]
  else []

/-- The transport refuses the word of farewell. -/
def Refused (notify : Bool) (s : Session) : Prop :=
  notify = true ∧ s.isUp = true ∧ s.writeFault? = some .refused

theorem write_apply (bytes : List UInt8) (s : Session) :
    write bytes s = match s.writeFault? with
      | some fault => .error (.write fault) (s.tellingAll (s.held (.unsent · fault)))
      | none => .ok () (s.tellingAll (s.held (.write · bytes))) := by
  unfold write
  rw [get_bind_apply]
  cases s.writeFault? with
  | none => exact tellOfHeld_tells _ s
  | some fault => exact bind_of_ok (tellOfHeld_tells _ s)

theorem takeLeave_tells (notify : Bool) (h : ¬ s.Refused notify) :
    (if notify then takeLeave else pure () : Act Session Unit) s =
      .ok () (s.tellingAll (s.farewell notify)) := by
  unfold farewell
  cases notify with
  | false => rfl
  | true =>
    show takeLeave s = _
    unfold takeLeave
    rw [get_bind_apply]
    cases hup : s.isUp with
    | false => rfl
    | true =>
      simp only [↓reduceIte, Bool.and_self, Act.rescue, write_apply]
      cases hf : s.writeFault? with
      | none => rfl
      | some fault =>
        have hr : fault ≠ .refused := fun hr => h ⟨rfl, hup, by rw [hf, hr]⟩
        simp only [isWriteFailure_write hr, ↓reduceIte, tellingAll_append]
        rfl

theorem part_clears (h : s.Mute) (hr : ¬ s.Refused notify) :
    part ask notify s = .ok () (s.tellingAll (s.farewell notify)).cleared := by
  have htake := takeLeave_tells notify hr
  have hmute : (s.tellingAll (s.farewell notify)).Mute := ⟨h.state, h.change⟩
  unfold part
  cases notify with
  | false => exact leave_clears ask hmute
  | true => exact (bind_of_ok htake).trans (leave_clears ask hmute)

/-- No change is marked. -/
def unmarked (s : Session) : Session :=
  { s with link := { s.link with signal := s.link.signal.reset } }

theorem cleared_unmarked (s : Session) : s.unmarked.cleared = s.cleared := by
  obtain ⟨⟨settings, life, signal, store, writesTo, readsFrom, dial, traffic⟩,
    pacer, loop, network, known, trace⟩ := s
  cases writesTo <;> rfl

theorem cancelDial_unmarked (d : Nat) (h : cancelDial d s = .ok () t) :
    cancelDial d s.unmarked = .ok () t.unmarked := by
  unfold cancelDial at h ⊢
  rw [get_bind_apply] at h ⊢
  have hd : s.unmarked.dial? d = s.dial? d := rfl
  rw [hd]
  cases hs : s.dial? d with
  | none =>
    rw [hs] at h
    cases h
    rfl
  | some dial =>
    rw [hs] at h
    obtain ⟨host, port, stage, wake, cancelAsked, shield, attempt⟩ := dial
    cases stage <;> cases wake <;> cases h <;> rfl

theorem callOff_unmarked (h : callOff s = .ok () t) : callOff s.unmarked = .ok () t.unmarked := by
  unfold callOff at h ⊢
  rw [get_bind_apply] at h ⊢
  have hd : s.unmarked.link.dial = s.link.dial := rfl
  rw [hd]
  cases hs : s.link.dial with
  | none =>
    rw [hs] at h
    cases h
    rfl
  | some d =>
    rw [hs] at h
    obtain ⟨_, v, hv, hrest⟩ := ok_bind h
    cases hrest
    exact bind_of_ok (cancelDial_unmarked d hv)

/-- From `u` the link has come to `t` by disconnecting after these words: it holds nothing, and
each state and change listener has been called once, unless there was nothing to tell. -/
structure Cleared (u : Session) (words : List Event) (t : Session) : Prop where
  phase : t.phase = .disconnected
  writesTo : t.link.writesTo = none
  readsFrom : t.link.readsFrom = none
  dial : t.link.dial = none
  store : t.link.store = .empty
  clean : t.link.signal.dirty = false
  events : t.trace.events = u.trace.events ++ words ++ (u.tellingAll words).parting

/-- There is nothing to do for another disconnect. -/
theorem Cleared.again (h : u.Cleared words t) (ask : Request → Act Session Answer) (notify : Bool) :
    disconnect ask notify t = .ok () t := by
  obtain ⟨⟨settings, ⟨phase, listeners⟩, ⟨window, dirty, markedAt, changed⟩, store, writesTo,
    readsFrom, dial, traffic⟩, pacer, loop, network, known, trace⟩ := t
  obtain ⟨rfl, rfl, rfl, rfl, rfl, rfl, -⟩ := h
  cases notify <;> rfl

/-- After these words the act disconnects the link and goes on as `rest` does. Whether a change was
marked does not matter, and there is nothing to do for another disconnect. -/
def Clears (act : Act Session α) (words : List Event)
    (rest : Session → EStateM.Result Fault Session α) (u : Session) : Prop :=
  ∃ t, u.Cleared words t ∧ act u = rest t ∧ act u.unmarked = rest t ∧
    ∀ ask notify, disconnect ask notify t = .ok () t

/-- An act that first tells some words. -/
theorem Clears.after {act act' : Act Session α} {rest : Session → EStateM.Result Fault Session α}
    (h : (u.tellingAll words).Clears act more rest) (he : act' u = act (u.tellingAll words))
    (he' : act' u.unmarked = act (u.unmarked.tellingAll words)) :
    u.Clears act' (words ++ more) rest := by
  obtain ⟨t, ht, hact, hact', hagain⟩ := h
  refine ⟨t, { ht with events := ?_ }, he.trans hact, he'.trans hact', hagain⟩
  rw [ht.events, events_tellingAll, tellingAll_append, ← List.append_assoc]

theorem Clears.bind {β : Type} {act : Act Session α} {f : α → Act Session β} {a : α}
    (h : u.Clears act words (.ok a)) : u.Clears (act >>= f) words (f a) := by
  obtain ⟨t, ht, hact, hact', hagain⟩ := h
  exact ⟨t, ht, bind_of_ok hact, bind_of_ok hact', hagain⟩

theorem clears_disconnect (ask : Request → Act Session Answer) (h : u.Mute)
    (hr : ¬ u.Refused notify) :
    u.Clears (disconnect ask notify) (u.farewell notify) (.ok ()) := by
  obtain ⟨v, hv, link, trace, connections, -⟩ := callOff_keeps u
  have hnow := now_of_callOff hv
  have hup : v.isUp = u.isUp := by
    unfold isUp phase receiver?
    rw [link, connections]
  have hfault : v.writeFault? = u.writeFault? := by
    unfold writeFault?
    rw [link, connections]
  have hfarewell : v.farewell notify = u.farewell notify := by
    unfold farewell held
    rw [hup, hfault, link]
  have hparting (words : List Event) :
      (v.tellingAll words).parting = (u.tellingAll words).parting := by
    unfold parting withdrawing closing goodbye clearing tellingAll phase
    rw [link, hnow, trace]
  have hmute : v.Mute := ⟨by rw [link]; exact h.state, by rw [link]; exact h.change⟩
  have hv' : ¬ v.Refused notify := by
    unfold Refused
    rwa [hup, hfault]
  have hcleared : u.Cleared (u.farewell notify) (v.tellingAll (v.farewell notify)).cleared := by
    refine ⟨rfl, rfl, rfl, ?_, rfl, rfl, ?_⟩
    · show v.link.dial = none
      rw [link]
    · calc (v.tellingAll (v.farewell notify)).cleared.trace.events
          = (v.tellingAll (v.farewell notify)).trace.events ++
              (v.tellingAll (v.farewell notify)).parting := events_tellingAll _ _
        _ = u.trace.events ++ u.farewell notify ++
              (u.tellingAll (u.farewell notify)).parting := by
          rw [events_tellingAll, trace, hfarewell, hparting]
  refine ⟨_, hcleared, ?_, ?_, hcleared.again⟩
  · rw [disconnect_eq, bind_of_ok hv]
    exact part_clears hmute hv'
  · have hunmarked : v.unmarked.Mute := ⟨hmute.state, hmute.change⟩
    rw [disconnect_eq, bind_of_ok (callOff_unmarked hv)]
    exact (part_clears hunmarked hv').trans
      (congrArg (EStateM.Result.ok ()) (cleared_unmarked (v.tellingAll (v.farewell notify))))

/-- A refused word of farewell leaves the link as it is, but for the dial under way. -/
theorem disconnect_of_refused (ask : Request → Act Session Answer) (h : u.Refused notify) :
    ∃ v, disconnect ask notify u = .error (.write .refused) v ∧
      v.link = { u.link with dial := none } ∧
      v.trace.events = u.trace.events ++ u.held (.unsent · .refused) := by
  obtain ⟨rfl, hup, hf⟩ := h
  obtain ⟨v, hv, link, trace, connections, -⟩ := callOff_keeps u
  have hup' : v.isUp = true := by
    rw [← hup]
    unfold isUp phase receiver?
    rw [link, connections]
  have hfault : v.writeFault? = some .refused := by
    rw [← hf]
    unfold writeFault?
    rw [link, connections]
  have htake : takeLeave v =
      .error (.write .refused) (v.tellingAll (v.held (.unsent · .refused))) := by
    unfold takeLeave
    rw [get_bind_apply, if_pos hup', Act.rescue, write_apply, hfault]
    rfl
  refine ⟨v.tellingAll (v.held (.unsent · .refused)), ?_, link, ?_⟩
  · rw [disconnect_eq, bind_of_ok hv]
    exact bind_of_error htake
  · rw [events_tellingAll, trace]
    unfold held
    rw [link]

/-! ### Whoever disconnects -/

theorem not_refused_false (u : Session) : ¬ u.Refused false := fun h => nomatch h.1

theorem clears_connect (ask : Request → Act Session Answer) (h : u.Mute)
    (hr : u.loop.running = true) (hp : u.phase ≠ .disconnected) (host : String) (port : Number) :
    u.Clears (connect ask host port) [] (setOut ask host port) := by
  obtain ⟨t, ht, hact, hact', hagain⟩ :=
    Clears.bind (f := fun _ => setOut ask host port) (clears_disconnect ask h u.not_refused_false)
  refine ⟨t, ht, ?_, ?_, hagain⟩
  · rw [connect_apply ask host port hr, if_neg hp]
    exact hact
  · rw [connect_apply ask host port (s := u.unmarked) hr,
      if_neg (show ¬ u.unmarked.phase = .disconnected from hp)]
    exact hact'

theorem send_of_fault (ask : Request → Act Session Answer) (hp : u.phase = .connected) {code : Int}
    {bytes : List UInt8} (encodes : Frame.encode code [] = .ok bytes) {fault : WriteFault}
    (hf : u.writeFault? = some fault) (hr : fault ≠ .refused) :
    send ask code u = (disconnect ask false >>= fun _ => pure false : Act Session Bool)
      (u.tellingAll (u.held (.unsent · fault) ++ [.log .info
        s!"Sending {codeName code} failed, dropping connection: {(Fault.write fault).message}"])) := by
  unfold send
  rw [get_bind_apply, if_neg (by simp [hp])]
  simp only [encodes, Act.rescue, bind_apply, write_apply, hf, isWriteFailure_write hr, ↓reduceIte,
    tellingAll_append]
  rfl

theorem clears_send (ask : Request → Act Session Answer) (h : u.Mute) (hp : u.phase = .connected)
    {code : Int} {bytes : List UInt8} (encodes : Frame.encode code [] = .ok bytes)
    {fault : WriteFault} (hf : u.writeFault? = some fault) (hr : fault ≠ .refused) :
    u.Clears (send ask code) (u.held (.unsent · fault) ++ [.log .info
      s!"Sending {codeName code} failed, dropping connection: {(Fault.write fault).message}"])
      (.ok false) := by
  have hdrop := Clears.bind (f := fun _ => (pure false : Act Session Bool))
    (clears_disconnect ask (u := u.tellingAll (u.held (.unsent · fault) ++ [.log .info
      s!"Sending {codeName code} failed, dropping connection: {(Fault.write fault).message}"]))
      ⟨h.state, h.change⟩ (not_refused_false _))
  have hall := hdrop.after (send_of_fault ask hp encodes hf hr)
    (send_of_fault ask (u := u.unmarked) hp encodes hf hr)
  rwa [show farewell false _ = [] from rfl, List.append_nil] at hall

theorem clears_giveUp (ask : Request → Act Session Answer) (h : u.Mute) (hr : ¬ u.Refused true)
    (e : WireError) : u.Clears (giveUp ask e)
      (.log .warning s!"Malformed data from debug server, reconnecting: {e.message}" ::
        u.farewell true) (.ok ()) :=
  (clears_disconnect ask (u := u.tellingAll [.log .warning _]) ⟨h.state, h.change⟩ hr).after rfl rfl

theorem clears_handle (ask : Request → Act Session Answer) (h : u.Mute) {frame : Frame}
    (hk : frame.kind? = some .disconnect) : u.Clears (handle ask frame)
      [.log .info "Debug server asked to disconnect"] (.ok (.ok ())) := by
  have hdrop := Clears.bind (f := fun _ => (pure (.ok ()) : Act Session (Except WireError Unit)))
    (clears_disconnect ask (u := u.tellingAll [.log .info "Debug server asked to disconnect"])
      ⟨h.state, h.change⟩ (not_refused_false _))
  refine hdrop.after ?_ ?_ <;> unfold handle <;> rw [hk] <;> rfl

/-- How the link tells that the peer has gone. -/
def goneText (s : Session) : String :=
  match s.receiver?.bind (·.error) with
  | some error => s!"Connection to debug server lost: {error}"
  | none => "Debug server closed the connection"

theorem tick_of_gone (ask : Request → Act Session Answer) (hp : u.phase = .connected)
    (hup : u.isUp = false) : tick ask u =
      disconnect ask false (u.tellingAll (u.held (.looked · .gone) ++ [.log .info u.goneText])) := by
  unfold tick goneText
  rw [get_bind_apply, if_neg (by simp [hp]), if_pos (by simp [hup])]
  rw [bind_of_ok (tellOfHeld_tells _ u), tellingAll_append]
  cases u.receiver?.bind (·.error) <;> rfl

theorem clears_tick (ask : Request → Act Session Answer) (h : u.Mute) (hp : u.phase = .connected)
    (hup : u.isUp = false) :
    u.Clears (tick ask) (u.held (.looked · .gone) ++ [.log .info u.goneText]) (.ok ()) := by
  have hall := (clears_disconnect ask
    (u := u.tellingAll (u.held (.looked · .gone) ++ [.log .info u.goneText]))
    ⟨h.state, h.change⟩ (not_refused_false _)).after
    (tick_of_gone ask hp hup) (tick_of_gone ask (u := u.unmarked) hp hup)
  rwa [show farewell false _ = [] from rfl, List.append_nil] at hall

theorem clears_stop (ask : Request → Act Session Answer) (h : u.Mute) (hr : ¬ u.Refused true)
    (hf : u.pacer.ticker ≠ .failed) : u.Clears (stop ask) (u.farewell true)
      fun t => .ok () (t.unbusied.telling (.log .info "Tick scheduler stopped")) := by
  obtain ⟨t, ht, hact, hact', hagain⟩ :=
    clears_disconnect ask (u := u.stopping) ⟨h.state, h.change⟩ hr
  refine ⟨t, { ht with }, ?_, ?_, hagain⟩
  · rw [stop_apply ask hf, hact]
    rfl
  · have hmid : u.unmarked.stopping = u.stopping.unmarked := rfl
    rw [stop_apply ask (s := u.unmarked) hf, hmid, hact']
    rfl

/-! ### A tick that fails -/

theorem Mute.attended (h : u.Mute) : u.Attended fun _ => False := by
  have hnone : ∀ l : Listener Request, l.IsMute → l.Within fun _ => False := by
    intro l hl trace q hq
    cases List.all_eq_true.mp (hl trace) _ hq
  exact ⟨fun l hl => hnone l (h.state l hl), fun l hl => hnone l (h.change l hl)⟩

theorem bears_mute : Bears (fun _ => False) Mute fun _ => True where
  asSetUp h hs := ⟨h.life ▸ hs.state, h.signal ▸ hs.change⟩
  attended hs := hs.attended
  ordinary _ := trivial

/-- The listeners of a mute session ask for nothing after the upkeep either. -/
theorem Mute.upkeep (h : u.Mute) (hv : (upkeep ask).Ends u v) : v.Mute := by
  have hnone : ∀ q, Request.Within (fun _ => False) q →
      ∀ s, Stays Mute (fun _ => True) (ask q) s := fun _ ⟨hq, _⟩ => hq.elim
  have hconnect : ∀ s : Session, s.Mute → ∀ t, Stays Mute (fun _ => True)
      (connect ask s.pacer.settings.host s.pacer.settings.port) t := fun _ _ t =>
    stays_connect bears_mute hnone (fun hw => ⟨hw.state, hw.change⟩) t
  have hprobe := stays_probe bears_mute hnone (Script.within_nil _)
  have hupkeep : Stays Mute (fun _ => True) (upkeepWith (.own ask [])) u :=
    preserves_upkeepWith bears_mute.upkeeps hprobe hconnect (stays_tick bears_mute hnone) u
  rw [← upkeepWith_own] at hv
  exact hupkeep.ends h hv

/-- An unexpected fault makes the pacer disconnect, and its poll does not fire then. -/
theorem tickOnce_of_fault (ask : Request → Act Session Answer) (hu : u.Mute) {e : Fault}
    (he : e.isOrdinary = true) (h : upkeep ask (u.telling .pacing) = .error e v) :
    ∃ t, v.Cleared [.log .error "Unexpected error while ticking the debug client"] t ∧
      tickOnce ask u = .ok () t ∧ ∀ ask notify, disconnect ask notify t = .ok () t := by
  have hmid : (u.telling .pacing).Mute := ⟨hu.state, hu.change⟩
  have hv : v.Mute := hmid.upkeep (.inr ⟨e, he, h⟩)
  obtain ⟨t, ht, hact, -, hagain⟩ := clears_disconnect ask
    (u := v.telling (.log .error "Unexpected error while ticking the debug client"))
    ⟨hv.state, hv.change⟩ (not_refused_false _)
  have hpoll : poll ask t = .ok false t := by
    unfold poll ChangeSignal.isDue
    rw [get_bind_apply, ht.clean]
    rfl
  refine ⟨t, { ht with events := ?_ }, ?_, hagain⟩
  · rw [ht.events, telling, Trace.events_record, show farewell false _ = [] from rfl,
      List.append_nil]
    rfl
  · unfold tickOnce
    rw [bind_of_ok (tell_apply _ u)]
    have hrescue : ((upkeep ask).rescue Fault.isOrdinary fun _ => do
        log .error "Unexpected error while ticking the debug client"
        disconnect ask false) (u.telling .pacing) = .ok () t := by
      simp only [Act.rescue, h, he, ↓reduceIte]
      exact hact
    exact (bind_of_ok hrescue).trans (bind_of_ok hpoll)

/-- Whatever has happened to a session, as long as its listeners ask for nothing: to disconnect
clears it, unless the transport refuses a word of farewell; that fault is passed on and the link
keeps its connection. So it does when the link is made to connect, when a write fails, when the peer
sends what cannot be read or asks to disconnect or has gone, when a tick of the pacer ends with a
fault, and when the pacer is stopped. -/
theorem disconnect_clears (h : u.Mute) (ask : Request → Act Session Answer) :
    (∀ notify, ¬ u.Refused notify →
      u.Clears (disconnect ask notify) (u.farewell notify) (.ok ())) ∧
    (∀ notify, u.Refused notify → ∃ v, disconnect ask notify u = .error (.write .refused) v ∧
      v.link = { u.link with dial := none } ∧
      v.trace.events = u.trace.events ++ u.held (.unsent · .refused)) ∧
    (u.loop.running = true → u.phase ≠ .disconnected → ∀ host port,
      u.Clears (connect ask host port) [] (setOut ask host port)) ∧
    (u.phase = .connected → ∀ code bytes fault, Frame.encode code [] = .ok bytes →
      u.writeFault? = some fault → fault ≠ .refused →
      u.Clears (send ask code) (u.held (.unsent · fault) ++ [.log .info
        s!"Sending {codeName code} failed, dropping connection: {(Fault.write fault).message}"])
        (.ok false)) ∧
    (¬ u.Refused true → ∀ e, u.Clears (giveUp ask e)
      (.log .warning s!"Malformed data from debug server, reconnecting: {e.message}" ::
        u.farewell true) (.ok ())) ∧
    (∀ frame, frame.kind? = some .disconnect → u.Clears (handle ask frame)
      [.log .info "Debug server asked to disconnect"] (.ok (.ok ()))) ∧
    (u.phase = .connected → u.isUp = false →
      u.Clears (tick ask) (u.held (.looked · .gone) ++ [.log .info u.goneText]) (.ok ())) ∧
    (∀ e v, e.isOrdinary = true → upkeep ask (u.telling .pacing) = .error e v →
      ∃ t, v.Cleared [.log .error "Unexpected error while ticking the debug client"] t ∧
        tickOnce ask u = .ok () t ∧ ∀ ask notify, disconnect ask notify t = .ok () t) ∧
    (¬ u.Refused true → u.pacer.ticker ≠ .failed → u.Clears (stop ask) (u.farewell true)
      fun t => .ok () (t.unbusied.telling (.log .info "Tick scheduler stopped"))) :=
  ⟨fun _ => clears_disconnect ask h, fun _ => disconnect_of_refused ask, clears_connect ask h,
    fun hp _ _ _ encodes => clears_send ask h hp encodes, clears_giveUp ask h,
    fun _ => clears_handle ask h, clears_tick ask h, fun _ _ => tickOnce_of_fault ask h,
    clears_stop ask h⟩

/-- A connection with a report on it, and two listeners of which one fails. -/
theorem clears_of_report :
    let u := (start {} {} .empty [⟨.opens, .int 0, .none, [], false, []⟩] none).after
      [.ask (.subscribe "view" fun _ => [.fail "closed"]), .ask (.onState "watch" (fun _ => []) none),
        .ask (.connect "127.0.0.1" (.int 27099)), .pass (.int 0),
        .ask (.data [11, 0, 0, 0, 0, 3, 0, 0, 0, 47, 97, 0, 0, 0, 0, 0, 0, 0, 0] none), .ask .tick]
    let told := (u.tellingAll [.write 0 (Frame.bare .disconnect)]).parting
    u.Mute ∧ u.link.store.isEmpty = false ∧ u.link.signal.dirty = true ∧
      told.filterMap Event.move? = [(.connected, .disconnected)] ∧
      told.filterMap Event.signal? = [[]] ∧ told.length = 7 ∧
      u.Clears (disconnect (perform maxDepth) true) [.write 0 (Frame.bare .disconnect)] (.ok ()) := by
  intro u told
  have hall : u.link.life.listeners ++ u.link.signal.listeners =
      [⟨0, "watch", fun _ => [], none⟩, ⟨0, "view", fun _ => [.fail "closed"], none⟩] := rfl
  have hmute : u.Mute := mute_of_listeners hall
    (List.forall_mem_cons.mpr ⟨fun _ => rfl, List.forall_mem_singleton.mpr fun _ => rfl⟩)
  have hwilling : ¬ u.Refused true := fun h => absurd h.2.2 (by decide +kernel)
  have hup : u.isUp = true := by decide +kernel
  have hfine : u.writeFault? = none := by decide +kernel
  have hwrites : u.link.writesTo = some 0 := by decide +kernel
  have hfarewell : u.farewell true = [.write 0 (Frame.bare .disconnect)] := by
    unfold farewell held
    rw [hup, hfine, hwrites]
    rfl
  have hclears := (disconnect_clears hmute (perform maxDepth)).1 true hwilling
  exact ⟨hmute, by decide +kernel, by decide +kernel, by decide +kernel, by decide +kernel,
    by decide +kernel, hfarewell ▸ hclears⟩

/-- Over a transport that refuses the word of farewell the link does not become disconnected. -/
theorem connection_stays_of_refused : ¬ ∀ (outcomes : List Outcome) (s : Session),
    Run (fun _ => True) (start {} {} .empty outcomes none) s → s.Mute → ∀ notify,
      ∃ t, disconnect (perform maxDepth) notify s = .ok () t ∧ t.phase = .disconnected := by
  intro hclaim
  let steps : List Step := [.ask (.connect "127.0.0.1" (.int 27099)), .pass (.int 0),
    .ask (.setWrites (some .refused) none)]
  let s := (start {} {} .empty [⟨.opens, .int 0, .none, [], false, []⟩] none).after steps
  have hrun := run_of_steps (A := fun _ => True)
    (s := start {} {} .empty [⟨.opens, .int 0, .none, [], false, []⟩] none) steps
    (fun step _ => stepWithin_of_all (fun _ => trivial) step) (by decide +kernel)
  have hrefused : s.Refused true := ⟨rfl, by decide +kernel, by decide +kernel⟩
  have hnone : (s.link.life.listeners ++ s.link.signal.listeners).isEmpty = true := by decide +kernel
  have hmute : s.Mute := mute_of_listeners (List.isEmpty_iff.mp hnone) nofun
  obtain ⟨t, ht, -⟩ := hclaim _ s hrun hmute true
  obtain ⟨v, hv, -⟩ := disconnect_of_refused (perform maxDepth) hrefused
  cases hv.symm.trans ht

end Session
end DiagnosticWatch
