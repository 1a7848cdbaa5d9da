/-
# One tick at a time, and none that fails

A tick of the pacer is stated here with the calls that it makes as parameters
(`Session.paceTickWith`), so that the link and the probe may do and fail as they
like. While a tick is under way, another one is skipped. The tick itself polls
the change signal once, at a session that does not depend on the poll: where
the upkeep has ended, or where an ordinary fault of the upkeep has been mended by
disconnecting (`Session.Upkept`). Only calls that are nested too deep are in the way.

Listeners and a probe that fail, or ask for another tick as deep as they like,
never nest calls too deep, since all they get is that the tick is skipped
(`Session.Skips`). So with them every tick ends with an answer, and a fault
downs the link.

Key definitions: `Request.Paces`, `Session.paceTickWith`, `Session.Upkept`,
`Session.Skips`, `Session.MidTick`, `Session.Calls.Orderly`.
Key theorems: `Session.paceTickWith_cases`, `Session.orderly_own`,
`Session.ticked_of_orderly`, `Session.ticks_alone_and_mended`.
-/
import DiagnosticWatch.Proofs.Session.Bystanders
import DiagnosticWatch.Proofs.Session.Unfailing

namespace DiagnosticWatch

/-- By this request the pacer is ticked. -/
def Request.Paces : Request → Prop
  | .paceTick | .paceTickUnlooped => True
  | _ => False

namespace Session

open Act

variable {s t u v w : Session} {ask : Request → Act Session Answer} {calls : Calls}

/-! ### Ticks with calls of any kind -/

/-- The upkeep of a tick, with what mends a fault of it. -/
def mending (ask : Request → Act Session Answer) (calls : Calls) : Act Session Unit :=
  (upkeepWith calls).rescue Fault.isOrdinary fun _ => do
    log .error "Unexpected error while ticking the debug client"
    disconnect ask false

/-- What the pacer does in a tick, with these calls. -/
def tickOnceWith (ask : Request → Act Session Answer) (calls : Calls) (poll : Act Session Bool) :
    Act Session Unit := do
  tell .pacing
  mending ask calls
  let _ ← poll

/-- A tick of the pacer, with these calls. -/
def paceTickWith (ask : Request → Act Session Answer) (calls : Calls) (poll : Act Session Bool) :
    Act Session Bool := do
  if (← get).pacer.busy then
    log .debug "Skipping overlapping tick"
    return false
  exclusively do
    if (← get).pacer.stopped then return false
    tickOnceWith ask calls poll
    return true

theorem paceTickWith_own (ask : Request → Act Session Answer) :
    paceTickWith ask (.own ask []) (poll ask) = paceTick ask := by
  unfold paceTickWith tickOnceWith mending
  rw [upkeepWith_own]
  rfl

/-- It is told that another tick is under way. -/
def skipping (s : Session) : Session :=
  s.telling (.log .debug "Skipping overlapping tick")

/-- A tick has begun. -/
def pacing (s : Session) : Session :=
  s.busied.telling .pacing

/-- The change signal is polled, and the tick ends. -/
def polling (poll : Act Session Bool) : Act Session Bool :=
  (poll >>= fun _ => pure true).ensuring unbusied

theorem paceTickWith_of_busy (poll : Act Session Bool) (hb : s.pacer.busy = true) :
    paceTickWith ask calls poll s = .ok false s.skipping := by
  unfold paceTickWith
  rw [get_bind_apply, if_pos hb]
  rfl

/-- To consult a probe does not fail with an ordinary fault. -/
theorem consult_error {probe : Act Session Bool} {e : Fault} (h : consult probe s = .error e t) :
    e.isOrdinary = false := by
  unfold consult Act.rescue at h
  cases hprobe : probe s with
  | ok yes v =>
    rw [hprobe] at h
    cases h
  | error e' v =>
    rw [hprobe] at h
    by_cases he : e'.isOrdinary = true
    · simp only [he, ↓reduceIte] at h
      cases h
    · simp only [he, Bool.false_eq_true, ↓reduceIte] at h
      cases h
      exact Bool.eq_false_iff.mpr he

/-- What a tick is if none is under way. -/
theorem paceTickWith_of_free (poll : Act Session Bool) (hb : s.pacer.busy = false) :
    paceTickWith ask calls poll s = (if s.pacer.stopped then pure false
      else tickOnceWith ask calls poll >>= fun _ => pure true : Act Session Bool).ensuring unbusied
        s.busied := by
  unfold paceTickWith
  rw [get_bind_apply, if_neg (by simp [hb])]
  rfl

theorem paceTickWith_of_stopped (poll : Act Session Bool) (hb : s.pacer.busy = false)
    (hs : s.pacer.stopped = true) : paceTickWith ask calls poll s = .ok false s := by
  rw [paceTickWith_of_free poll hb, if_pos hs]
  show EStateM.Result.ok false s.busied.unbusied = _
  have hidle : { s.pacer with busy := false } = s.pacer := by rw [← hb]
  show EStateM.Result.ok false { s with pacer := { s.pacer with busy := false } } = _
  rw [hidle]

/-- The upkeep that begins at `u` comes to `v`: it ends there, or an ordinary fault of a call to the
link is mended by disconnecting without a word to the peer. -/
inductive Upkept (ask : Request → Act Session Answer) (calls : Calls) (u : Session) : Session → Prop
  | fine {v : Session} (h : upkeepWith calls u = .ok () v) : Upkept ask calls u v
  | mended {v w : Session} {e : Fault} (h : upkeepWith calls u = .error e w)
      (ordinary : e.isOrdinary = true)
      (failed : calls.tick u = .error e w ∨
        ∃ host port t, calls.connect host port t = .error e w)
      (dropped : disconnect ask false
        (w.telling (.log .error "Unexpected error while ticking the debug client")) = .ok () v) :
      Upkept ask calls u v

theorem maybeConnectWith_error {e : Fault} (h : maybeConnectWith calls s = .error e t)
    (he : e.isOrdinary = true) : ∃ host port u, calls.connect host port u = .error e t := by
  unfold maybeConnectWith at h
  rw [get_bind_apply] at h
  split at h
  · rcases error_bind h with h | ⟨-, u, -, h⟩
    · cases h
    rcases error_bind h with h | ⟨yes, v, -, h⟩
    · cases (consult_error h).symm.trans he
    split at h
    · rcases error_bind h with h | ⟨-, w, -, h⟩
      · cases h
      rcases error_bind h with h | ⟨-, w, -, h⟩
      · cases h
      exact ⟨_, _, w, h⟩
    · cases h
  · cases h

/-- Only a call to the link can make the upkeep fail with an ordinary fault. -/
theorem upkeepWith_error {e : Fault} (h : upkeepWith calls s = .error e t)
    (he : e.isOrdinary = true) :
    calls.tick s = .error e t ∨ ∃ host port u, calls.connect host port u = .error e t := by
  rcases error_bind h with h | ⟨-, u, -, h⟩
  · exact .inl h
  refine .inr ?_
  rw [get_bind_apply] at h
  rcases error_bind h with h | ⟨-, v, -, h⟩
  · cases h
  split at h
  · exact maybeConnectWith_error h he
  · cases h

theorem disconnect_answers (ask : Request → Act Session Answer) (s : Session) :
    (disconnect ask false).Answers s := by
  intro e t h
  obtain ⟨v, hv, -⟩ := callOff_keeps s
  rw [disconnect_eq, bind_of_ok hv] at h
  exact leave_answers ask v e t h

theorem poll_answers (ask : Request → Act Session Answer) (s : Session) :
    (poll ask).Answers s := by
  intro e t h
  unfold poll at h
  rw [get_bind_apply] at h
  split at h
  · rcases error_bind h with h | ⟨-, v, -, h⟩
    · rw [fire_apply] at h
      exact Fault.eq_tooDeep (announce_error _ _ h)
    · cases h
  · cases h

theorem tickOnceWith_apply (poll : Act Session Bool) (s : Session) :
    tickOnceWith ask calls poll s =
      (mending ask calls >>= fun _ => poll >>= fun _ => pure ()) (s.telling .pacing) := rfl

theorem mending_of_error {e : Fault} (h : upkeepWith calls s = .error e t)
    (he : e.isOrdinary = true) : mending ask calls s = disconnect ask false
      (t.telling (.log .error "Unexpected error while ticking the debug client")) := by
  unfold mending Act.rescue
  rw [h]
  simp only [he, ↓reduceIte]
  rfl

theorem mending_of_upkept (h : Upkept ask calls s v) : mending ask calls s = .ok () v := by
  cases h with
  | fine h => simp only [mending, Act.rescue, h]
  | mended h he _ dropped => rw [mending_of_error h he, dropped]

/-- Only calls nested too deep are in the way of the upkeep. -/
theorem mending_cases (ask : Request → Act Session Answer) (calls : Calls) (s : Session) :
    (∃ v, Upkept ask calls s v) ∨ ∃ w, mending ask calls s = .error .tooDeep w := by
  cases h : upkeepWith calls s with
  | ok _ v => exact .inl ⟨v, .fine h⟩
  | error e w =>
    by_cases he : e.isOrdinary = true
    · let w' := w.telling (.log .error "Unexpected error while ticking the debug client")
      cases hd : disconnect ask false w' with
      | ok _ v => exact .inl ⟨v, .mended h he (upkeepWith_error h he) hd⟩
      | error e' v =>
        cases disconnect_answers ask w' e' v hd
        exact .inr ⟨v, (mending_of_error h he).trans hd⟩
    · cases Fault.eq_tooDeep (Bool.eq_false_iff.mpr he)
      refine .inr ⟨w, ?_⟩
      unfold mending Act.rescue
      rw [h]
      rfl

theorem paceTickWith_apply (poll : Act Session Bool) (hb : s.pacer.busy = false)
    (hs : s.pacer.stopped = false) : paceTickWith ask calls poll s =
      (tickOnceWith ask calls poll >>= fun _ => pure true).ensuring unbusied s.busied := by
  rw [paceTickWith_of_free poll hb, if_neg (by simp [hs])]

/-- A tick polls the change signal where its upkeep has come to an end. -/
theorem paceTickWith_of_upkept (hb : s.pacer.busy = false) (hs : s.pacer.stopped = false)
    (h : Upkept ask calls s.pacing v) (poll : Act Session Bool) :
    paceTickWith ask calls poll s = polling poll v := by
  have htick : tickOnceWith ask calls poll s.busied = (poll >>= fun _ => pure ()) v :=
    (tickOnceWith_apply poll s.busied).trans (bind_of_ok (mending_of_upkept h))
  rw [paceTickWith_apply poll hb hs, polling, ensuring, ensuring, bind_apply, bind_apply, htick,
    bind_apply]
  cases poll v <;> rfl

/-- A tick that is made, whatever the calls do, polls the change signal once, where its upkeep has
come to an end, unless calls are nested too deep. -/
theorem paceTickWith_cases (ask : Request → Act Session Answer) (calls : Calls)
    (hb : s.pacer.busy = false) (hs : s.pacer.stopped = false) :
    (∃ v, Upkept ask calls s.pacing v ∧
      ∀ poll, paceTickWith ask calls poll s = polling poll v) ∨
    ∃ w : Session, ∀ poll, paceTickWith ask calls poll s = .error .tooDeep w.unbusied := by
  rcases mending_cases ask calls s.pacing with ⟨v, hv⟩ | ⟨w, hw⟩
  · exact .inl ⟨v, hv, paceTickWith_of_upkept hb hs hv⟩
  · refine .inr ⟨w, fun poll => ?_⟩
    have htick : tickOnceWith ask calls poll s.busied = .error .tooDeep w :=
      (tickOnceWith_apply poll s.busied).trans (bind_of_error hw)
    rw [paceTickWith_apply poll hb hs, ensuring, bind_of_error htick]

/-- A tick with the calls of the session does not fail, whatever the listeners do. -/
theorem paceTick_answers (ask : Request → Act Session Answer) (s : Session) :
    (paceTick ask).Answers s := by
  intro e t h
  rw [← paceTickWith_own] at h
  by_cases hb : s.pacer.busy = true
  · rw [paceTickWith_of_busy _ hb] at h
    cases h
  by_cases hs : s.pacer.stopped = true
  · rw [paceTickWith_of_stopped _ (Bool.eq_false_iff.mpr hb) hs] at h
    cases h
  rcases paceTickWith_cases ask (.own ask []) (Bool.eq_false_iff.mpr hb) (Bool.eq_false_iff.mpr hs)
    with ⟨v, -, hpolls⟩ | ⟨w, hdeep⟩
  · rw [hpolls, polling, ensuring, bind_apply] at h
    cases hp : poll ask v with
    | ok b u =>
      rw [hp] at h
      cases h
    | error e' u =>
      rw [hp] at h
      cases h
      exact poll_answers ask v e u hp
  · rw [hdeep] at h
    cases h
    rfl

/-! ### In the middle of a tick -/

/-- Whoever asks for a tick while one is under way is told that it is skipped. -/
def Skips (ask : Request → Act Session Answer) : Prop :=
  ∀ q : Request, q.Paces → ∀ s, s.pacer.busy = true → ask q s = .ok (.flag false) s.skipping

theorem skips_perform (depth : Nat) : Skips (perform (depth + 1)) := by
  intro q hq s hb
  cases q with
  | paceTick => exact bind_of_ok (paceTick_of_busy hb)
  | paceTickUnlooped =>
    let u : Session := { s with loop := { s.loop with running := false } }
    have hskip : paceTick (perform depth) u = .ok false u.skipping := paceTick_of_busy hb
    have hunlooped : unlooped (paceTick (perform depth)) s = .ok false s.skipping := by
      unfold unlooped
      rw [get_bind_apply, bind_of_ok (onLoop_apply _ s), ensuring, hskip]
      rfl
    exact bind_of_ok hunlooped
  | _ => cases hq

/-- A tick is under way, and the listeners ask for no more than another one. -/
structure MidTick (s : Session) : Prop where
  busy : s.pacer.busy = true
  attended : s.Attended Request.Paces

theorem bears_midTick : Bears Request.Paces MidTick (·.isOrdinary = true) where
  asSetUp h hs := ⟨h.busy.trans hs.busy, hs.attended.congr h.life h.signal⟩
  attended hs := hs.attended
  ordinary := id

theorem Skips.stays (h : Skips ask) (q : Request) (hq : Request.Within Request.Paces q)
    (s : Session) : Stays MidTick (·.isOrdinary = true) (ask q) s := by
  obtain ⟨hpaces, -⟩ := hq
  refine .of_holds fun hs => preserves_of_ok (h q hpaces s hs.busy) fun _ => ?_
  exact ⟨hs.busy, { hs.attended with }⟩

theorem Skips.answersIdly (h : Skips ask) :
    AnswersIdly Request.Paces (·.busy = true) ask := by
  rintro q ⟨hpaces, -⟩ s hb
  exact ⟨_, _, h q hpaces s hb, chats_telling s rfl⟩

/-- The calls leave the tick under way and bring no listeners that ask for more. They may fail with
any fault that can be dealt with. -/
structure Calls.Orderly (calls : Calls) : Prop where
  tick : ∀ s, Stays MidTick (·.isOrdinary = true) calls.tick s
  connect : ∀ host port s, Stays MidTick (·.isOrdinary = true) (calls.connect host port) s
  probe : ∀ s, Stays MidTick (·.isOrdinary = true) calls.probe s

/-- So are the calls of the session, with a probe that asks for no more than another tick. -/
theorem orderly_own (h : Skips ask) {script : List (Reaction Request)}
    (hscript : Script.Within Request.Paces script) : (Calls.own ask script).Orderly where
  tick := stays_tick bears_midTick h.stays
  connect _ _ := stays_connect bears_midTick h.stays fun hs => ⟨hs.busy, { hs.attended with }⟩
  probe := stays_probe bears_midTick h.stays hscript

theorem Calls.Orderly.upkeep (h : calls.Orderly) (s : Session) :
    Stays MidTick (·.isOrdinary = true) (upkeepWith calls) s :=
  preserves_upkeepWith bears_midTick.upkeeps h.probe (fun _ _ => h.connect _ _) h.tick s

/-- A fault in the middle of a tick is mended: the link is downed. -/
theorem Skips.mends (skips : Skips ask) (h : w.MidTick) : ∃ v, disconnect ask false
    (w.telling (.log .error "Unexpected error while ticking the debug client")) = .ok () v ∧
    v.MidTick ∧ Downed w v := by
  let w' := w.telling (.log .error "Unexpected error while ticking the debug client")
  have hattended : w'.Attended Request.Paces := h.attended.congr_link rfl
  obtain ⟨v, hv, hdowned⟩ := downed_disconnect skips.answersIdly hattended h.busy
  refine ⟨v, hv, ⟨?_, hattended.congr ?_ ?_⟩, ?_⟩
  · rw [hdowned.pacer]
    exact h.busy
  · rw [hdowned.link]
  · rw [hdowned.link]
    rfl
  · exact hdowned.of_tallies (chats_telling w rfl).tallies rfl rfl rfl

/-- With such calls the upkeep of a tick comes to its end, where the tick is still under way, and a
fault has downed the link. -/
theorem Calls.Orderly.upkept (h : calls.Orderly) (skips : Skips ask) (hs : s.MidTick) :
    ∃ v, Upkept ask calls s v ∧ v.MidTick ∧
      ∀ e w, upkeepWith calls s = .error e w → Downed w v := by
  obtain ⟨hok, herror⟩ := h.upkeep s hs
  have hcases : (∃ v, upkeepWith calls s = .ok () v) ∨ ∃ e w, upkeepWith calls s = .error e w := by
    cases upkeepWith calls s with
    | ok _ v => exact .inl ⟨v, rfl⟩
    | error e w => exact .inr ⟨e, w, rfl⟩
  rcases hcases with ⟨v, hv⟩ | ⟨e, w, hw⟩
  · refine ⟨v, .fine hv, hok () v hv, fun e w hw => ?_⟩
    cases hv.symm.trans hw
  · obtain ⟨hmid, he⟩ := herror e w hw
    obtain ⟨v, hv, hmid', hdowned⟩ := skips.mends hmid
    refine ⟨v, .mended hw he (upkeepWith_error hw he) hv, hmid', fun e' w' hw' => ?_⟩
    cases hw.symm.trans hw'
    exact hdowned

/-- Where a tick polls the change signal of the session, the poll answers. -/
theorem MidTick.polling (h : s.MidTick) (skips : Skips ask) :
    ∃ t, polling (poll ask) s = .ok true t ∧ t.pacer.busy = false ∧ t.Attended Request.Paces := by
  obtain ⟨hok, herror⟩ := (bears_midTick.outlasts skips.stays).poll s h
  have hpoll : ∃ b t, poll ask s = .ok b t := by
    cases hp : poll ask s with
    | ok b t => exact ⟨b, t, rfl⟩
    | error e t =>
      have hordinary : e.isOrdinary = true := (herror e t hp).2
      rw [poll_answers ask s e t hp] at hordinary
      cases hordinary
  obtain ⟨b, t, hpoll⟩ := hpoll
  refine ⟨t.unbusied, ?_, rfl, { (hok b t hpoll).attended with }⟩
  rw [Session.polling, ensuring, bind_of_ok hpoll]
  rfl

/-- The tick that begins at `u` polls the change signal at `v`, and ends at `t` if the poll is that
of the session. -/
structure Ticked (ask : Request → Act Session Answer) (calls : Calls) (u v t : Session) : Prop where
  upkept : Upkept ask calls u.pacing v
  downed : ∀ e w, upkeepWith calls u.pacing = .error e w → Downed w v
  /-- The tick does with any poll what that does at `v`, so that it polls once, there. -/
  polls : ∀ poll, paceTickWith ask calls poll u = polling poll v
  answers : paceTickWith ask calls (poll ask) u = .ok true t
  free : t.pacer.busy = false
  attended : t.Attended Request.Paces

theorem ticked_of_orderly (skips : Skips ask) (orderly : calls.Orderly)
    (hu : u.Attended Request.Paces) (hb : u.pacer.busy = false) (hs : u.pacer.stopped = false) :
    ∃ v t, Ticked ask calls u v t := by
  have hmid : u.pacing.MidTick := ⟨rfl, { hu with }⟩
  obtain ⟨v, hv, hmid', hdowned⟩ := orderly.upkept skips hmid
  have hpolls := paceTickWith_of_upkept hb hs hv
  obtain ⟨t, ht, hfree, ht'⟩ := hmid'.polling skips
  exact ⟨v, t, hv, hdowned, hpolls, (hpolls _).trans ht, hfree, ht'⟩

/-- After any run no tick is under way, and while one is, it stays so whatever is asked for. A tick
of the session does not fail, whatever the listeners do, unless calls are nested too deep.

With any calls in the place of those to the link and the probe: a tick that is begun while another
is under way is skipped, which is logged, and nothing else happens; after the pacer has been stopped
nothing happens at all; and a tick that is made polls the change signal once, where its upkeep has
come to an end or a fault of it has been followed by disconnecting, and leaves the guard free.

Of what listeners and a probe get that only fail and ask for further ticks it is enough to know what
they get while a tick is under way (`Skips`): calls are not nested too deep then, so that the tick
answers, and a fault of the link has downed it before the poll. -/
theorem ticks_alone_and_mended {link pacer : Settings} {store : Store} {outcomes : List Outcome}
    {probe : Option (List (Option Json))}
    (h : Unpaced (fun _ => True) (start link pacer store outcomes probe) s) :
    s.pacer.busy = false ∧
    (∀ depth q u t, (perform depth q).Ends u t → t.pacer.busy = u.pacer.busy) ∧
    (∀ ask u, (paceTick ask).Answers u) ∧
    (∀ ask, paceTickWith ask (.own ask []) (poll ask) = paceTick ask) ∧
    (∀ ask calls poll u, u.pacer.busy = true →
      paceTickWith ask calls poll u = .ok false u.skipping) ∧
    (∀ ask calls poll u, u.pacer.busy = false → u.pacer.stopped = true →
      paceTickWith ask calls poll u = .ok false u) ∧
    (∀ ask calls u, u.pacer.busy = false → u.pacer.stopped = false →
      (∃ v, Upkept ask calls u.pacing v ∧
        ∀ poll, paceTickWith ask calls poll u = polling poll v) ∨
      ∃ w : Session, ∀ poll, paceTickWith ask calls poll u = .error .tooDeep w.unbusied) ∧
    (∀ depth, Skips (perform (depth + 1))) ∧
    ∀ ask, Skips ask →
      (∀ script, Script.Within Request.Paces script → (Calls.own ask script).Orderly) ∧
      ∀ calls : Calls, calls.Orderly → ∀ u : Session, u.Attended Request.Paces →
        u.pacer.busy = false → u.pacer.stopped = false → ∃ v t, Ticked ask calls u v t := by
  refine ⟨(paced_of_unpaced h).2, fun depth q u t ht => ?_, paceTick_answers, paceTickWith_own,
    fun _ _ poll _ => paceTickWith_of_busy poll, fun _ _ poll _ => paceTickWith_of_stopped poll,
    fun ask calls _ => paceTickWith_cases ask calls, skips_perform,
    fun ask skips => ⟨fun _ => orderly_own skips,
      fun _ orderly _ => ticked_of_orderly skips orderly⟩⟩
  have hpace : KeepsPace {} u t := keepsPace_perform depth q u t ht
  exact hpace.busy

/-- The sign of life is refused as such, a listener fails and ticks again, and so does the probe. -/
theorem ticks_alone_and_mended_of_refused :
    let u := (start {} {} .empty [⟨.opens, .int 0, .none, [], false, []⟩] none).after
      [.ask (.onState "again" (fun _ => [.ask .paceTick, .fail "late"]) (some .disconnected)),
        .ask (.connect "127.0.0.1" (.int 27099)), .pass (.int 0),
        .ask (.setWrites (some .refused) none)]
    let s : Session := { u with loop := { u.loop with now := 1006 } }
    let calls : Calls := .own (perform maxDepth) [.ask .paceTick, .fail "gone"]
    ∃ v t, Ticked (perform maxDepth) calls s v t ∧ s.phase = .connected ∧
      v.phase = .disconnected := by
  intro u s calls
  let begun := start {} {} .empty [⟨.opens, .int 0, .none, [], false, []⟩] none
  have hbegun : Unpaced (fun _ => True) begun u :=
    unpaced_of_steps _ (fun step _ => stepWithin_of_all (fun _ => trivial) step) (by decide +kernel)
  have hrun : Unpaced (fun _ => True) begun s :=
    hbegun.trans (unpaced_of_move (.clock 1006) (fun _ => Move.noConfusion) rfl)
  let paces : Reaction Request → Bool := fun
    | .fail _ | .ask .paceTick => true
    | _ => false
  have hwithin {script : List (Reaction Request)} (h : script.all paces = true) :
      Script.Within Request.Paces script := fun q hq => by
    have hq := List.all_eq_true.mp h _ hq
    cases q <;> first | exact Request.within_plain trivial rfl | cases hq
  have hlife : s.link.life.listeners =
      [⟨0, "again", fun _ => [.ask .paceTick, .fail "late"], some .disconnected⟩] := rfl
  have hsignal : s.link.signal.listeners.isEmpty = true := by decide +kernel
  have hattended : s.Attended Request.Paces := by
    refine ⟨fun l hl trace => hwithin ?_, fun l hl => ?_⟩
    · rw [hlife] at hl
      rw [List.mem_singleton.mp hl]
      rfl
    · rw [List.isEmpty_iff.mp hsignal] at hl
      cases hl
  obtain ⟨hfree, -, -, -, -, -, -, hskips, hticks⟩ := ticks_alone_and_mended hrun
  obtain ⟨horderly, hticks⟩ := hticks _ (hskips 999)
  have hcalls : calls.Orderly := horderly _ (hwithin rfl)
  obtain ⟨v, t, h⟩ := hticks calls hcalls s hattended hfree (by decide +kernel)
  refine ⟨v, t, h, by decide +kernel, ?_⟩
  have hfault : (upkeepWith calls).isOk s.pacing = false := by decide +kernel
  unfold Act.isOk at hfault
  cases hw : upkeepWith calls s.pacing with
  | ok a w =>
    rw [hw] at hfault
    cases hfault
  | error e w => exact (h.downed e w hw).phase

end Session
end DiagnosticWatch
