/-
# Calls are work

Whatever is asked of a session, it ends in work: a request does, given that
the requests of listeners do (`works_answer`), and so does every request
however deep its listeners nest others (`works_perform`).

What is said on the connection is work only as a whole, so that a theorem on
an act that says something, or that leaves the connection, also says what it
comes to after words that were told before it. All else is work piece by piece
(`Session.Worked`), so that the walk through the acts applies.

Key definitions: `Session.Yields`, `Session.Works`, `Session.Worked`,
`Session.Preface`.
Key theorems: `Session.lands_disconnect`, `Session.lands_send`,
`Session.works_connect`, `Session.works_answer`, `Session.works_perform`.
-/
import DiagnosticWatch.Proofs.Session.Preserved

namespace DiagnosticWatch

theorem Event.isPlain_of_isTalk {e : Event} (h : e.isTalk = true) : e.isPlain = true := by
  cases e <;> first | rfl | cases h

theorem Event.isPlain_of_isPacing {e : Event} (h : e.isPacing = true) : e.isPlain = true := by
  cases e <;> first | rfl | cases h

namespace Session

open Act

variable {A : Request → Prop} {s t u w : Session} {α β : Type} {i : Nat} {words : List Event}
  {ask : Request → Act Session Answer}

/-! ### Acts that work -/

/-- The way from `s` to `t` is work, if `s` is fit for it. -/
def Yields (A : Request → Prop) (s t : Session) : Prop :=
  s.Fit A → Work A s t

instance : IsPreorder Session (Yields A) where
  refl s _ := .refl s
  trans _ _ _ h h' hs := (h hs).trans (h' (hs.work (h hs)))

/-- Wherever the act begins, it ends in work. -/
def Works (A : Request → Prop) (act : Act Session α) : Prop :=
  ∀ s, Leads (Yields A) act s

/-- Every request within `A` that a listener makes ends in work. -/
def Asks (A : Request → Prop) (ask : Request → Act Session Answer) : Prop :=
  ∀ q, Request.Within A q → Works A (ask q)

theorem leads_of_lands {act : Act Session α} (h : s.Fit A → act.Lands (Work A s) s) :
    Leads (Yields A) act s :=
  fun t ht hs => h hs t ht

/-- An act that begins after some work. -/
theorem lands_of_leads {act : Act Session α} (hs : s.Fit A) (hw : Work A s t)
    (h : Leads (Yields A) act t) : act.Lands (Work A s) t :=
  fun u hu => hw.trans (h u hu (hs.work hw))

theorem lands_bind {x : Act Session α} {f : α → Act Session β} (hs : s.Fit A)
    (hx : x.Lands (Work A s) t) (hf : ∀ a, Works A (f a)) : (x >>= f).Lands (Work A s) t :=
  hx.bind fun a v _ hw => lands_of_leads hs hw (hf a v)

theorem yields_of_change (h : Change A s t) : Yields A s t :=
  fun _ => .of_change h

theorem yields_of_alike (h : Alike s t) : Yields A s t :=
  fun _ => .of_alike h

theorem Works.pure (a : α) : Works A (Pure.pure a : Act Session α) :=
  fun s => Leads.pure a s

theorem Works.throw (e : Fault) : Works A (MonadExcept.throw e : Act Session α) :=
  fun s => Leads.throw e s

theorem Works.bind {x : Act Session α} {f : α → Act Session β} (hx : Works A x)
    (hf : ∀ a, Works A (f a)) : Works A (x >>= f) :=
  fun s => Leads.bind (hx s) fun a v _ _ => hf a v

theorem Works.get {f : Session → Act Session β} (hf : ∀ s, Leads (Yields A) (f s) s) :
    Works A ((MonadState.get : Act Session Session) >>= f) :=
  fun s => leads_get_bind.mpr (hf s)

theorem Works.ite {p : Prop} [Decidable p] {x y : Act Session α} (hx : Works A x) (hy : Works A y) :
    Works A (if p then x else y) := by
  split
  · exact hx
  · exact hy

theorem works_log (level : Level) (text : String) : Works A (log level text : Act Session Unit) :=
  fun s => leads_of_ok (tell_apply _ s) (yields_of_alike (alike_record s rfl))

/-- The work that began at `w` has come to `t`. -/
structure Worked (A : Request → Prop) (w t : Session) : Prop where
  fit : w.Fit A
  work : Work A w t

theorem Worked.then (hw : Worked A w s) (h : Work A s t) : Worked A w t :=
  ⟨hw.fit, hw.work.trans h⟩

theorem Worked.alike (hw : Worked A w s) (h : Alike s t) : Worked A w t :=
  hw.then (.of_alike h)

theorem Worked.telling (hw : Worked A w s) {e : Event} (he : e.isPlain = true) :
    Worked A w (s.telling e) :=
  hw.alike (alike_record s he)

theorem leads_of_worked {act : Act Session α}
    (h : Preserves (Worked A s) (Ordinarily (Worked A s)) act s) : Leads (Yields A) act s :=
  fun _ ht hs => (h.ends (fun _ _ he hq => hq he) ⟨hs, .refl s⟩ ht).work

/-- To work is to go on with whatever work there was before. -/
theorem works_iff {act : Act Session α} :
    Works A act ↔ ∀ w s, Preserves (Worked A w) (Ordinarily (Worked A w)) act s := by
  refine ⟨fun h w s hw => ?_, fun h s => leads_of_worked (h s s)⟩
  have hends : ∀ t, act.Ends s t → Worked A w t := fun t ht =>
    hw.then (h s t ht (hw.fit.work hw.work))
  exact ⟨fun a t ht => hends t (ends_of_ok ht), fun e t ht he => hends t (.inr ⟨e, he, ht⟩)⟩

/-! ### Listeners -/

theorem attends_worked (ha : Asks A ask) (w : Session) :
    Attends A (Worked A w) (Ordinarily (Worked A w)) ask where
  talk he hs := hs.telling (Event.isPlain_of_isTalk he)
  attended hs := (hs.fit.work hs.work).scripted.attended
  raised _ hs _ := hs
  caught he hs := hs he
  asks q hq := works_iff.mp (ha q hq) w

theorem works_script (ha : Asks A ask) {script : List (Reaction Request)}
    (h : Script.Within A script) : Works A (Script.run Request.name ask script) :=
  works_iff.mpr fun w =>
    preserves_play (attends_worked ha w) (attends_worked ha w).asks h

theorem leads_tellState (ha : Asks A ask) (old new : Phase) (s : Session) :
    Leads (Yields A) (tellState ask old new s.link.life.listeners) s :=
  leads_of_worked (preserves_tellState (attends_worked ha s) old new s)

theorem leads_tellChange (ha : Asks A ask) (s : Session) :
    Leads (Yields A) (tellChange ask s.link.signal.listeners) s :=
  leads_of_worked (preserves_tellChange (attends_worked ha s) s)

theorem works_poll (ha : Asks A ask) : Works A (poll ask) :=
  works_iff.mpr fun w s => preserves_poll (attends_worked ha w) fun hdirty hs =>
    hs.then (.of_change (.signal s (.inl hdirty)))

/-! ### Dropping the connection -/

/-- Words are told on the connection that there is. -/
theorem writesTo_of_tells (h : Tells s words t) : t.link.writesTo = s.link.writesTo := by
  refine h.keeps (P := fun t => t.link.writesTo = s.link.writesTo) ?_ rfl
  intro u v hp hu
  cases hp with
  | alike h => exact h.writesTo.trans hu
  | word | setOut | dial => exact hu
  | cancel _ h => exact (congrArg Link.writesTo (cancelDial_keeps h).1).trans hu

theorem Tells.snoc (h : Tells s words t) {e : Event} (he : e.isWord = true) :
    Tells s (words ++ [e]) (t.telling e) :=
  h.trans (.of_word t he)

theorem Tells.log (h : Tells s words t) (level : Level) (text : String) :
    Tells s words { t with trace := t.trace.record (.log level text) } := by
  simpa using h.trans (.of_alike (alike_record t (e := .log level text) rfl))

theorem leads_sayGoodbye (ha : Asks A ask) (old : Phase) (s : Session) :
    Leads (Yields A) (sayGoodbye ask old s.link.life.listeners) s :=
  leads_of_worked (preserves_sayGoodbye (attends_worked ha s) old s)

theorem yields_of_forget (ha : Asks A ask) (h : (forget ask).Ends s t) : Yields A s.forgotten t := by
  unfold Ends at h
  rw [forget_apply] at h
  split at h
  · exact Leads.pure () s.forgotten t h
  · exact leads_tellChange ha s.forgotten t h

/-- The state listeners run when the link has left, and the change listeners when the
reports are forgotten. -/
theorem work_of_leave (ha : Asks A ask) (hs : s.Fit A) (h : (leave ask).Ends s t) :
    ∃ u, Work A s.left u ∧ Work A u.forgotten t := by
  unfold Ends at h
  rw [leave_apply] at h
  have hg := leads_sayGoodbye ha s.phase s.left
  rw [left_listeners] at hg
  rcases ends_bind_cases h with ⟨a, u, hu, hf⟩ | ⟨e, he, hu⟩
  · have hw : Work A s.left u := hg u (ends_of_ok hu) hs.left
    exact ⟨u, hw, yields_of_forget ha hf (hs.left.work hw).forgotten⟩
  · rw [sayGoodbye_error hu] at he
    cases he

/-- The link leaves its connection after some last words. -/
theorem lands_leave (ha : Asks A ask) (hs : s.Fit A) (last : s.Parting A words)
    (tells : Tells s words t) : (leave ask).Lands (Work A s) t := by
  intro u hu
  obtain ⟨v, listeners, rest⟩ := work_of_leave ha (hs.tells tells) hu
  exact .drop last tells listeners rest

/-- Nothing is under way when the dial under way has been cancelled. -/
theorem callOff_ok (s : Session) : ∃ t, callOff s = .ok () t ∧ Tells s [] t ∧
    t.link.dial = none ∧ t.network.dials.size = s.network.dials.size := by
  unfold callOff
  cases hd : s.link.dial with
  | none => exact ⟨s, by rw [get_bind_apply, hd]; rfl, .refl s, hd, rfl⟩
  | some d =>
    obtain ⟨t, ht, -⟩ := cancelDial_ok d s
    refine ⟨t.dialless, ?_, .cancel hd ht (.refl _), rfl, (cancelDial_keeps ht).2.2⟩
    rw [get_bind_apply, hd]
    exact bind_of_ok ht

/-- What may be told on the connection before the link disconnects: last words, or what
may precede a word of farewell if that is asked for. -/
def Preface (A : Request → Prop) (notify : Bool) (s : Session) (words : List Event) : Prop :=
  match s.link.writesTo with
  | some i => if notify then Trouble i words else LastWords A i words
  | none => words = []

theorem preface_nil (A : Request → Prop) (notify : Bool) (s : Session) : s.Preface A notify [] := by
  unfold Preface
  cases s.link.writesTo with
  | none => rfl
  | some i =>
    cases notify with
    | false => exact .silent .none
    | true => exact Trouble.none

theorem Preface.of_held (h : s.link.writesTo = some i) (hw : LastWords A i words) :
    s.Preface A false words := by
  unfold Preface
  rw [h]
  exact hw

theorem Preface.of_trouble (h : s.link.writesTo = some i) (hw : Trouble i words) :
    s.Preface A true words := by
  unfold Preface
  rw [h]
  exact hw

theorem Preface.trouble (h : s.link.writesTo = some i) (hw : s.Preface A true words) :
    Trouble i words := by
  unfold Preface at hw
  rwa [h] at hw

theorem Parting.of_held (h : s.link.writesTo = some i) (hw : LastWords A i words) :
    s.Parting A words := by
  unfold Parting
  rw [h]
  exact hw

theorem Preface.parting {notify : Bool} (h : s.Preface A notify words) : s.Parting A words := by
  unfold Preface at h
  unfold Parting
  cases hw : s.link.writesTo with
  | none => rwa [hw] at h
  | some i =>
    rw [hw] at h
    cases notify with
    | false => exact h
    | true => exact .silent h

/-- A word of farewell is said to a peer that has not left, or the transport does not take
it. Only a refusal is not dealt with. -/
theorem takeLeave_cases (hs : s.Held) :
    (s.isUp = false ∧ takeLeave s = .ok () s) ∨
    ∃ i, s.isUp = true ∧ s.link.writesTo = some i ∧
      ((s.writeFault? = none ∧
          takeLeave s = .ok () (s.telling (.write i (Frame.bare .disconnect)))) ∨
        (s.writeFault? = some .refused ∧
          takeLeave s = .error (.write .refused) (s.telling (.unsent i .refused))) ∨
        ∃ fault text, fault ≠ .refused ∧ s.writeFault? = some fault ∧
          takeLeave s = .ok () { s.telling (.unsent i fault) with
            trace := (s.telling (.unsent i fault)).trace.record (.log .debug text) }) := by
  cases hup : s.isUp with
  | false =>
    refine .inl ⟨rfl, ?_⟩
    unfold takeLeave
    rw [get_bind_apply, if_neg (by simp [hup])]
    rfl
  | true =>
    have hp : s.phase = .connected := of_decide_eq_true (Bool.and_eq_true_iff.mp hup).1
    obtain ⟨i, hi, -⟩ := hs.2 hp
    have htake : takeLeave s = ((write (Frame.bare .disconnect)).rescue Fault.isWriteFailure fun e =>
        log .debug s!"Could not send DISCONNECT: {e.message}") s := by
      unfold takeLeave
      rw [get_bind_apply, if_pos hup]
    refine .inr ⟨i, rfl, hi, ?_⟩
    rcases write_cases hi (Frame.bare .disconnect) with ⟨hfine, e⟩ | ⟨fault, hfault, e⟩ <;>
      simp only [Act.rescue, e] at htake
    · exact .inl ⟨hfine, htake⟩
    · by_cases hr : fault = .refused
      · subst hr
        exact .inr (.inl ⟨hfault, htake⟩)
      · rw [isWriteFailure_write hr] at htake
        exact .inr (.inr ⟨fault, _, hr, hfault, htake⟩)

/-- A word of farewell is said if that is asked for and the peer has not left, and the link
leaves, unless the transport refuses the word. -/
theorem lands_part (ha : Asks A ask) (hs : s.Fit A) {notify : Bool} (hw : s.Preface A notify words)
    (tells : Tells s words t) : (part ask notify).Lands (Work A s) t := by
  have hleave : (leave ask).Lands (Work A s) t := lands_leave ha hs hw.parting tells
  unfold part
  cases notify with
  | false => exact hleave
  | true =>
    show (takeLeave >>= fun _ => leave ask).Lands (Work A s) t
    rcases takeLeave_cases (hs.tells tells).held with ⟨-, e⟩ | ⟨i, -, ht, htake⟩
    · exact lands_congr (bind_of_ok e) hleave
    have hi : s.link.writesTo = some i := (writesTo_of_tells tells).symm.trans ht
    have htrouble := hw.trouble hi
    rcases htake with ⟨-, e⟩ | ⟨-, e⟩ | ⟨fault, text, hr, -, e⟩
    · refine lands_congr (bind_of_ok e) (lands_leave ha hs ?_ (tells.snoc rfl))
      exact .of_held hi (.farewell htrouble)
    · exact lands_of_error (bind_of_error e) (.speak hi (.unable htrouble) (tells.snoc rfl) (.refl _))
    · refine lands_congr (bind_of_ok e) (lands_leave ha hs ?_ ((tells.snoc rfl).log .debug text))
      exact .of_held hi (.unheard htrouble hr)

/-- The link disconnects after words that were told before. -/
theorem lands_disconnect (ha : Asks A ask) (hs : s.Fit A) {notify : Bool}
    (hw : s.Preface A notify words) (tells : Tells s words t) :
    (disconnect ask notify).Lands (Work A s) t := by
  obtain ⟨v, hv, hcall, -⟩ := callOff_ok t
  have hall : Tells s words v := by simpa using tells.trans hcall
  rw [disconnect_eq]
  exact lands_congr (bind_of_ok hv) (lands_part ha hs hw hall)

theorem works_disconnect (ha : Asks A ask) (notify : Bool) : Works A (disconnect ask notify) :=
  fun s => leads_of_lands fun hs => lands_disconnect ha hs (preface_nil A notify s) (.refl s)

/-- The link leaves after a word or without one, unless the transport refuses the word. -/
theorem disconnect_cases (ask : Request → Act Session Answer) (hs : s.Fit A) (notify : Bool) :
    (∃ words t, Tells s words t ∧ t.network.dials.size = s.network.dials.size ∧
      t.pacer = s.pacer ∧ disconnect ask notify s = leave ask t) ∨
    (s.writeFault? = some .refused ∧ ∃ t, disconnect ask notify s = .error (.write .refused) t) := by
  obtain ⟨v, hv, link, -, connections, pacer⟩ := callOff_keeps s
  obtain ⟨v', hv', tells, -, dials⟩ := callOff_ok s
  cases hv.symm.trans hv'
  rw [disconnect_eq, bind_of_ok hv]
  cases notify with
  | false => exact .inl ⟨[], v, tells, dials, pacer, rfl⟩
  | true =>
    rcases takeLeave_cases (hs.tells tells).held with
      ⟨-, e⟩ | ⟨i, -, -, ⟨-, e⟩ | ⟨hf, e⟩ | ⟨fault, text, -, -, e⟩⟩
    · exact .inl ⟨[], v, tells, dials, pacer, bind_of_ok e⟩
    · exact .inl ⟨_, _, tells.snoc rfl, dials, pacer, bind_of_ok e⟩
    · refine .inr ⟨?_, _, bind_of_error e⟩
      unfold writeFault? at hf ⊢
      rwa [link, connections] at hf
    · exact .inl ⟨_, _, (tells.snoc rfl).log .debug text, dials, pacer, bind_of_ok e⟩

/-! ### Connecting and sending -/

theorem phase_of_change (h : Change A s t) : t.phase = s.phase := by
  cases h with
  | plain alike => exact alike.phase
  | listen | put | mark | report | signal => rfl

/-- Only a dial that goes on makes a connection, so that work does not. -/
theorem phase_of_work (h : Work A s t) (hs : s.phase ≠ .connected) : t.phase ≠ .connected := by
  refine h.keeps (P := fun s => s.phase ≠ .connected) ?_ ?_ ?_ ?_ hs
  · intro s t hc hs
    rwa [phase_of_change hc]
  · intro s t hp hs
    cases hp with
    | alike h => rwa [h.phase]
    | word | dial => exact hs
    | @cancel u _ _ h =>
      show u.phase ≠ .connected
      rwa [phase, (cancelDial_keeps h).1]
    | setOut =>
      show Phase.connecting ≠ .connected
      decide
  · intro s _
    rw [phase_left]
    decide
  · intro s hs
    unfold forgotten
    split <;> exact hs

/-- There is no connection when the link has left, since the listeners make none. -/
theorem apart_of_leave (ha : Asks A ask) (hs : s.Fit A) (h : (leave ask).Ends s t) :
    t.Fit A ∧ t.phase ≠ .connected := by
  obtain ⟨u, listeners, rest⟩ := work_of_leave ha hs h
  refine ⟨(hs.left.work listeners).forgotten.work rest, phase_of_work rest ?_⟩
  rw [phase_forgotten]
  refine phase_of_work listeners ?_
  rw [phase_left]
  nofun

/-- Nor when it has disconnected without a word. -/
theorem apart_of_hangUp (ha : Asks A ask) (hs : s.Fit A) (h : (disconnect ask false).Ends s t) :
    t.Fit A ∧ t.phase ≠ .connected := by
  obtain ⟨v, hv, tells, -⟩ := callOff_ok s
  unfold Ends at h
  rw [disconnect_eq, bind_of_ok hv] at h
  exact apart_of_leave ha (hs.tells tells) h

theorem works_setOut (ha : Asks A ask) (host : String) (port : Number) :
    Works A (setOut ask host port) := by
  intro s
  by_cases hp : s.phase = .disconnected
  · refine leads_of_lands fun hs t ht => ?_
    have hm : s.phase.canBecome .connecting = true := by rw [hp]; rfl
    rcases ends_bind_cases ht with ⟨a, v, hv, hf⟩ | ⟨e, he, hv⟩
    · rw [moveTo_apply hm] at hv
      have hw : Work A (s.movedTo .connecting) v :=
        leads_tellState ha s.phase .connecting (s.movedTo .connecting) v (ends_of_ok hv)
          (hs.part (.setOut hp))
      have hlog := alike_record v (e := .log .debug
        s!"Connecting to debug server at {host}:{port.text}") rfl
      have hall := hw.trans (.of_alike hlog)
      refine .connect host port hp hall (phase_of_work hall nofun) ?_
      rw [(ends_ok_iff (show _ = EStateM.Result.ok () _ from rfl)).mp hf]
      exact .refl _
    · rw [moveTo_apply hm] at hv
      rw [announce_error _ _ hv] at he
      cases he
  · exact Leads.after (y := throw (.badTransition s.phase .connecting))
      (yields_of_alike (alike_record s (e := .refused s.phase .connecting) rfl)) (Leads.throw _ _)
      (setOut_of_not ask host port hp)

theorem works_connect (ha : Asks A ask) (host : String) (port : Number) :
    Works A (connect ask host port) := by
  have hout := works_iff.mp (works_setOut ha host port)
  refine works_iff.mpr fun w s => preserves_connect_of (fun hs _ => hs) (fun _ => hout w s)
    fun _ => ?_
  exact .bind (works_iff.mp (works_disconnect ha false) w s) fun _ t => hout w t

/-- A frame is written where the transport takes writes. -/
theorem send_of_willing (ask : Request → Act Session Answer) (hp : s.phase = .connected)
    (hi : s.link.writesTo = some i) (hw : s.writeFault? = none) {code : Int} {bytes : List UInt8}
    (encodes : Frame.encode code [] = .ok bytes) :
    send ask code s = .ok true (s.telling (.write i bytes)) := by
  rcases write_cases hi bytes with ⟨-, e⟩ | ⟨fault, hfault, -⟩
  · unfold send
    rw [get_bind_apply, if_neg (by simp [hp])]
    simp only [encodes, Act.rescue, bind_of_ok e, pure_apply]
  · cases hw.symm.trans hfault

/-- A frame is written, or the transport refuses it, or does not take it for another reason
and the connection is dropped. -/
theorem send_cases (ask : Request → Act Session Answer) (hs : s.Held) (hi : s.link.writesTo = some i)
    {code : Int} {bytes : List UInt8} (encodes : Frame.encode code [] = .ok bytes) :
    (s.writeFault? = none ∧ send ask code s = .ok true (s.telling (.write i bytes))) ∨
    (s.writeFault? = some .refused ∧
      send ask code s = .error (.write .refused) (s.telling (.unsent i .refused))) ∨
    ∃ fault text, fault ≠ .refused ∧ s.writeFault? = some fault ∧
      send ask code s = (disconnect ask false >>= fun _ => pure false : Act Session Bool)
        { s.telling (.unsent i fault) with
          trace := (s.telling (.unsent i fault)).trace.record (.log .info text) } := by
  have hp : s.phase = .connected := hs.connected_iff.mpr (by rw [hi]; nofun)
  rcases write_cases hi bytes with ⟨hfine, -⟩ | ⟨fault, hfault, e⟩
  · exact .inl ⟨hfine, send_of_willing ask hp hi hfine encodes⟩
  · unfold send
    rw [get_bind_apply, if_neg (by simp [hp])]
    simp only [encodes]
    by_cases hr : fault = .refused
    · subst hr
      refine .inr (.inl ⟨hfault, ?_⟩)
      simp only [Act.rescue, bind_of_error e]
      rfl
    · refine .inr (.inr ⟨fault,
        s!"Sending {codeName code} failed, dropping connection: {(Fault.write fault).message}", hr,
        hfault, ?_⟩)
      simp only [Act.rescue, bind_of_error e, isWriteFailure_write hr, ↓reduceIte]
      rfl

/-- A frame is written upon its cue, or the connection is dropped, unless the transport
refuses the frame. -/
theorem lands_send (ha : Asks A ask) (hs : s.Fit A) (hi : s.link.writesTo = some i) {code : Int}
    {bytes : List UInt8} (cue : Cue A i bytes words) (encodes : Frame.encode code [] = .ok bytes)
    (tells : Tells s words t) : (send ask code).Lands (Work A s) t := by
  have ht : t.link.writesTo = some i := (writesTo_of_tells tells).trans hi
  rcases send_cases ask (hs.tells tells).held ht encodes with
    ⟨-, e⟩ | ⟨-, e⟩ | ⟨fault, text, hr, -, e⟩
  · exact lands_of_ok e (.speak hi (.wrote cue) (tells.snoc rfl) (.refl _))
  · exact lands_of_error e (.speak hi (.refused cue) (tells.snoc rfl) (.refl _))
  · have hlast : s.Preface A false (words ++ [.unsent i fault]) := .of_held hi (.failed cue hr)
    exact lands_congr e (lands_bind hs
      (lands_disconnect ha hs hlast ((tells.snoc rfl).log .info text)) fun _ => Works.pure false)

/-- A frame that somebody asks for is sent, unless it is none or there is no connection. -/
theorem works_send (ha : Asks A ask) {code : Int} (asked : A (.send code)) :
    Works A (tellOfHeld (.asked · code) >>= fun _ => send ask code) := by
  intro s
  refine leads_of_lands fun hs => ?_
  by_cases hp : s.phase = .connected
  · obtain ⟨i, hi, -⟩ := hs.held.2 hp
    have tells : Tells s [.asked i code] (s.telling (.asked i code)) := .of_word s rfl
    refine lands_congr (bind_of_ok (tellOfHeld_apply hi _)) ?_
    cases he : Frame.encode code [] with
    | ok bytes => exact lands_send ha hs hi (.request asked he) he tells
    | error e =>
      refine lands_of_error (e := .encode e) ?_ (.speak hi (.senseless he) tells (.refl _))
      have hp' : (s.telling (.asked i code)).phase = .connected := hp
      unfold send
      rw [get_bind_apply, if_neg (by simp [hp'])]
      simp only [he, Act.rescue]
      rfl
  · have htell := tellOfHeld_of_none (hs.held.1 hp).1 (.asked · code)
    exact lands_of_ok ((bind_of_ok htell).trans (send_of_apart hp code)) (.refl s)

/-! ### Receiving -/

theorem leads_report (report : Report) (h : s.link.readsFrom ≠ none) :
    Leads (Yields A) (put report >>= fun _ => mark) s := by
  refine Leads.after (v := (s.stored report).marked) (yields_of_change (.report s report h))
    (works_log .debug s!"Stored {report.diagnostics.length} diagnostics for {report.path.text}" _) ?_
  rfl

/-- Drops a connection on which frames cannot be told apart any more, or not be read. -/
theorem lands_giveUp (ha : Asks A ask) (hs : s.Fit A) (hw : s.Preface A true words)
    (tells : Tells s words t) (e : WireError) : (giveUp ask e).Lands (Work A s) t :=
  lands_congr (bind_of_ok (tell_apply _ t)) (lands_disconnect ha hs hw (tells.log _ _))

theorem works_giveUp (ha : Asks A ask) (e : WireError) : Works A (giveUp ask e) :=
  fun s => leads_of_lands fun hs => lands_giveUp ha hs (preface_nil A true s) (.refl s) e

/-- When a frame has been handled, the next follows or the connection is given up. -/
theorem lands_hear_of_handle (ha : Asks A ask) (hs : s.Fit A) {frame : Frame}
    {next : Act Session Unit} (hn : Works A next) (h : (handle ask frame).Lands (Work A s) t) :
    (hear ask frame next).Lands (Work A s) t := by
  refine lands_bind hs h fun r => ?_
  cases r with
  | ok => exact hn
  | error e => exact works_giveUp ha e

theorem lands_hear (ha : Asks A ask) (hs : s.Fit A) (hr : s.link.readsFrom = some i) (frame : Frame)
    {next : Act Session Unit} (hn : Works A next) :
    (hear ask frame next).Lands (Work A s) (s.telling (.handled i frame)) := by
  have hi : s.link.writesTo = some i := (hs.held.reads_iff i).mp hr
  have tells : Tells s [.handled i frame] (s.telling (.handled i frame)) := .of_word s rfl
  -- Of a report that cannot be read, the giving up belongs to the same phrase.
  by_cases hu : ∃ e, frame.kind? = some .diagnostics ∧ Report.read frame.body = .error e
  · obtain ⟨e, hk, he⟩ := hu
    have hhandle : handle ask frame (s.telling (.handled i frame)) =
        .ok (.error e) (s.telling (.handled i frame)) := by
      unfold handle
      rw [hk]
      simp only [he, pure_apply]
    exact lands_congr (bind_of_ok hhandle)
      (lands_giveUp ha hs (.of_trouble hi (.unreadable hk he)) tells e)
  refine lands_hear_of_handle ha hs hn ?_
  unfold handle
  split
  · rename_i hk
    refine lands_bind hs ?_ fun _ => Works.pure _
    exact lands_send ha hs hi (.ping hk) (Frame.encode_bare _) tells
  · rename_i hk
    split
    · exact absurd ⟨_, hk, ‹_›⟩ hu
    · rename_i report he
      have hw : Work A s (s.telling (.handled i frame)) :=
        .speak hi (.heard (by simp [hk]) (by simp [hk]) fun _ => ⟨report, he⟩) tells (.refl _)
      have hreport := leads_report (A := A) report (s := s.telling (.handled i frame))
        (show s.link.readsFrom ≠ none by simp [hr])
      refine lands_of_leads hs hw ?_
      refine leads_congr ?_ (Leads.bind hreport fun _ v _ _ => Leads.pure (Except.ok ()) v)
      rw [bind_assoc]
  · rename_i hk
    refine lands_congr (bind_of_ok (tell_apply _ _)) (lands_bind hs ?_ fun _ => Works.pure _)
    exact lands_disconnect ha hs (.of_held hi (.asked hk)) (tells.log _ _)
  · rename_i hping hreport hleave
    have hw : Work A s (s.telling (.handled i frame)) :=
      .speak hi (.heard hping hleave fun hk => absurd hk hreport) tells (.refl _)
    exact lands_of_leads hs hw (Works.bind (works_log _ _) (fun _ => Works.pure _) _)

theorem alike_onConnection (s : Session) (i : Nat) (f : Connection → Connection) (now : Float) :
    Alike s { s with
      link := { s.link with lastTraffic := now }
      network := { s.network with connections := s.network.connections.modify i f } } :=
  (alike_traffic s now).trans (alike_connections _ Array.size_modify)

/-- The induction is on the bound, as in what follows about the handling of frames. -/
theorem works_drain (ha : Asks A ask) (bound : Nat) : Works A (drain ask bound) := by
  induction bound with
  | zero => exact Works.pure ()
  | succ bound ih =>
    intro s
    rcases drain_cases ask bound s with he | ⟨e, he⟩ | ⟨i, c, f, rest, hi, -, -, he⟩
    · exact leads_of_ok he (refl_of (Yields A) s)
    · exact leads_congr he (works_giveUp ha e s)
    · have hv := alike_onConnection s i
        (fun c => { c with receiver := { c.receiver with inbox := rest } }) s.loop.now
      refine Leads.after (y := tell (.handled i f) >>= fun _ => hear ask f (drain ask bound))
        (yields_of_alike hv) (leads_of_lands fun hs => ?_) he
      exact lands_congr (bind_of_ok (tell_apply _ _))
        (lands_hear ha hs (hv.readsFrom.trans hi) f ih)

theorem works_drainAll (ha : Asks A ask) : Works A (drainAll ask) := by
  unfold drainAll
  refine Works.get fun s => ?_
  split
  · exact works_drain ha _ s
  · exact Leads.pure () s

theorem works_tick (ha : Asks A ask) : Works A (tick ask) := by
  unfold tick
  refine Works.get fun s => leads_of_lands fun hs => ?_
  split
  · exact lands_of_ok rfl (.refl s)
  rename_i hp
  obtain ⟨i, hi, -⟩ := hs.held.2 (Decidable.not_not.mp hp)
  have hlook : ∀ finding, Tells s [.looked i finding] (s.telling (.looked i finding)) :=
    fun finding => .of_word s rfl
  split
  · refine lands_congr (bind_of_ok (tellOfHeld_apply hi _)) ?_
    have hgone : s.Preface A false [.looked i .gone] := .of_held hi .gone
    split <;> exact lands_congr (bind_of_ok (tell_apply _ _))
      (lands_disconnect ha hs hgone ((hlook .gone).log _ _))
  split
  · refine lands_congr (bind_of_ok (tellOfHeld_apply hi _)) (lands_congr (bind_of_ok rfl) ?_)
    refine lands_bind hs (lands_send ha hs hi .silence (Frame.encode_bare _)
      ((hlook .silent).trans (.of_alike (alike_traffic _ _)))) fun _ => ?_
    exact Works.ite (works_drainAll ha) (Works.pure ())
  · refine lands_congr (bind_of_ok (tellOfHeld_apply hi _)) ?_
    exact lands_of_leads hs (.speak hi .calm (hlook .calm) (.refl _)) (works_drainAll ha _)

/-! ### The pacer -/

theorem Worked.pacer (hw : Worked A w s) (pacer : Pacer) : Worked A w { s with pacer } :=
  hw.alike (alike_pacer s pacer)

theorem alike_ready (s : Session) :
    Alike s { s with loop := { s.loop with ready := s.loop.ready ++ [.ticker] } } := by
  refine alike_loop s ?_ rfl
  rw [List.filter_append]
  exact List.append_nil _

theorem alike_disarmed (s : Session) : Alike s (s.disarmed .ticker) := by
  refine alike_loop s rfl ?_
  rw [List.filter_filter]
  simp only [Bool.and_self]
  rfl

theorem Arms.alike {x : Float} (h : Arms x s t) : Alike s t := by
  have hwait := alike_record s (e := .wait s.interval s.loop.now) rfl
  exact {
    settings := by rw [h.link]
    life := by rw [h.link]
    dirty := by rw [h.link]
    listeners := by rw [h.link]
    store := by rw [h.link]
    writesTo := by rw [h.link]
    readsFrom := by rw [h.link]
    dial := by rw [h.link]
    outcomes := by rw [h.network]
    dials := by rw [h.network]
    connections := by rw [h.network]
    tasks := by
      unfold tasks
      rcases h.ready with hr | hr <;> simp [hr, Job.isTask]
    alarms := by
      unfold alarms
      simp [h.timers]
    told := by
      unfold told
      rw [h.trace]
      exact hwait.told }

theorem paces_worked (ha : Asks A ask) (w : Session) :
    Paces (Worked A w) (Ordinarily (Worked A w)) ask where
  stroke h hs := by
    cases h with
    | tells he => exact hs.telling (Event.isPlain_of_isPacing he)
    | notes => exact hs.pacer _
  raised _ hs _ := hs
  caught he hs := hs he
  carried h hs he := h (hs he)
  busies _ hs := hs.pacer _
  readies hs := hs.alike (alike_ready _)
  disarms hs := hs.alike (alike_disarmed _)
  tick := works_iff.mp (works_tick ha) w
  connect s _ := works_iff.mp (works_connect ha _ _) w
  poll := works_iff.mp (works_poll ha) w
  drop notify := works_iff.mp (works_disconnect ha notify) w

theorem works_runTicker (ha : Asks A ask) : Works A (runTicker ask) :=
  works_iff.mpr fun w => preserves_runTicker (paces_worked ha w) fun h hs => hs.alike h.alike

theorem works_stop (ha : Asks A ask) : Works A (stop ask) :=
  works_iff.mpr fun w =>
    preserves_stop (paces_worked ha w).toSchedules (works_iff.mp (works_disconnect ha true) w)

/-! ### Requests -/

theorem answering_worked (ha : Asks A ask) (w : Session) :
    Answering A A (Worked A w) (Ordinarily (Worked A w)) ask where
  raised _ hs _ := hs
  carried h hs he := h (hs he)
  log _ _ hs := hs.telling rfl
  unloops _ hs := hs.alike (alike_loop _ rfl rfl)
  listens known _ _ hl hg hs := hs.then (.of_change (.listen _ known hl hg))
  sets _ _ _ hs := hs.alike (alike_connections _ Array.size_modify)
  peer _ _ h := preserves_ofPeer (fun _ _ hs => hs.alike (alike_connections _ Array.size_modify))
    (fun _ _ hs => hs.telling rfl) h
  connect host port _ := works_iff.mp (works_connect ha host port) w
  drop notify := works_iff.mp (works_disconnect ha notify) w
  tick := works_iff.mp (works_tick ha) w
  send _ hk := works_iff.mp (works_send ha hk) w
  put path notes hk report s :=
    .bind (preserves_of_ok (v := s.stored report) rfl fun hs =>
      hs.then (.of_change (.put s report ⟨path, notes, hk⟩))) fun _ _ =>
        preserves_tell fun ht => ht.telling rfl
  marks hk _ hs := hs.then (.of_change (.mark _ hk))
  poll := works_iff.mp (works_poll ha) w
  fire hk s := preserves_fire (attends_worked ha w) fun hs =>
    hs.then (.of_change (.signal s (.inr hk)))
  pace _ := preserves_paceTick (paces_worked ha w)
  start _ := preserves_startTicker (paces_worked ha w).toSchedules
  cancel _ := preserves_cancelTicker (paces_worked ha w).toSchedules

/-- A request ends in work if the requests of the listeners do. -/
theorem works_answer (ha : Asks A ask) {request : Request} (h : Request.Within A request) :
    Works A (answer ask request) := by
  obtain ⟨self, script⟩ := h
  exact works_iff.mpr fun w => preserves_answer (answering_worked ha w) self script

/-- However deep listeners nest requests, a request ends in work. -/
theorem works_perform (depth : Nat) : Asks A (perform depth) := by
  induction depth with
  | zero => exact fun _ _ => Works.throw _
  | succ depth ih => exact fun _ h => works_answer ih h

end Session
end DiagnosticWatch
