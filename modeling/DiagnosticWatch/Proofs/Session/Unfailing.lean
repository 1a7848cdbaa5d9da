/-
# What reaches whoever asks

Errors of the connection do not reach whoever asks the link for something, as
long as its transport does not refuse what is written: whatever the listeners
do, to disconnect, to tick and to send a frame of the catalog ends with an
answer, unless calls are nested too deep (`Act.Answers`). To connect does not
always. What there is of a connection is dropped first, listeners run then, and
if one of them sets out again, the link cannot set out itself
(`Session.Overtaken`). This is the only way in which it fails.

Key definitions: `Act.Answers`, `Session.StaysReady`, `Session.Overtaken`.
Key theorems: `Session.staysReady_disconnect`, `Session.staysReady_send`,
`Session.staysReady_tick`, `Session.connect_of_overtaken`,
`Session.answers_unless_overtaken`.
-/
import DiagnosticWatch.Proofs.Session.Runs

namespace DiagnosticWatch

/-- Whatever is not ordinary comes of calls that are nested too deep. -/
theorem Fault.eq_tooDeep {e : Fault} (h : e.isOrdinary = false) : e = .tooDeep := by
  cases e <;> first | rfl | cases h

/-- From `w` the act answers, unless calls are nested too deep. -/
def Act.Answers {σ α : Type} (act : Act σ α) (w : σ) : Prop :=
  ∀ e v, act w = .error e v → e = .tooDeep

namespace Session

open Act

variable {A : Request → Prop} {s t u : Session} {α : Type} {i : Nat} {e : Event}
  {ask : Request → Act Session Answer}

/-- The session is fit, and the transport that there is does not refuse what is written. -/
structure Ready (A : Request → Prop) (s : Session) : Prop where
  fit : s.Fit A
  willing : s.writeFault? ≠ some .refused

/-- If the session is ready, the act answers and the session is ready then, unless calls are nested
too deep. -/
def StaysReady (A : Request → Prop) (act : Act Session α) (s : Session) : Prop :=
  Preserves (Ready A) (fun e _ => e = .tooDeep) act s

theorem StaysReady.answers {act : Act Session α} (h : StaysReady A act s) (hs : s.Ready A) :
    act.Answers s :=
  (h hs).2

/-! ### Acts from which it stays ready -/

theorem Ready.change (hs : s.Ready A) (h : Change A s t) (hw : t.writeFault? = s.writeFault?) :
    t.Ready A :=
  ⟨hs.fit.change h, hw ▸ hs.willing⟩

theorem Ready.plain (hs : s.Ready A) (h : Alike s t) (hw : t.writeFault? = s.writeFault?) :
    t.Ready A :=
  hs.change (.plain h) hw

theorem Ready.telling (hs : s.Ready A) (he : e.isWord = true) : (s.telling e).Ready A :=
  ⟨hs.fit.tells (.of_word s he), hs.willing⟩

/-- Nothing is refused where there is no connection. -/
theorem ready_of_apart (hs : s.Fit A) (h : s.phase ≠ .connected) : s.Ready A := by
  refine ⟨hs, ?_⟩
  unfold writeFault?
  rw [(hs.held.1 h).1]
  nofun

/-! ### Disconnecting and sending -/

theorem leave_answers (ask : Request → Act Session Answer) (s : Session) :
    (leave ask).Answers s := by
  intro e v h
  refine Fault.eq_tooDeep ?_
  rw [leave_apply, bind_apply] at h
  cases hg : sayGoodbye ask s.phase s.link.life.listeners s.left with
  | error e' u =>
    rw [hg] at h
    cases h
    exact sayGoodbye_error hg
  | ok a u =>
    rw [hg] at h
    simp only [forget_apply] at h
    split at h
    · cases h
    · exact announce_error _ _ h

/-- There is no connection when the link has disconnected. -/
theorem apart_of_disconnect (ha : Asks A ask) (hs : s.Ready A) {notify : Bool}
    (h : disconnect ask notify s = .ok () t) : t.Fit A ∧ t.phase ≠ .connected := by
  rcases disconnect_cases ask hs.fit notify with ⟨words, v, tells, -, -, e⟩ | ⟨hf, -⟩
  · exact apart_of_leave ha (hs.fit.tells tells) (ends_of_ok (e ▸ h))
  · exact absurd hf hs.willing

theorem staysReady_disconnect (ha : Asks A ask) (notify : Bool) (s : Session) :
    StaysReady A (disconnect ask notify) s := by
  refine fun hs => ⟨fun _ t ht => ?_, ?_⟩
  rotate_left
  · show (disconnect ask notify).Answers s
    rcases disconnect_cases ask hs.fit notify with ⟨words, v, tells, -, -, e⟩ | ⟨hf, -⟩
    · unfold Answers
      rw [e]
      exact leave_answers ask v
    · exact absurd hf hs.willing
  · obtain ⟨hfit, hp⟩ := apart_of_disconnect ha hs ht
    exact ready_of_apart hfit hp

/-- A frame of the catalog is sent, or the connection is dropped. -/
theorem staysReady_send (ha : Asks A ask) (kind : Kind) (s : Session) :
    StaysReady A (send ask kind.code) s := by
  refine .of_holds fun hs => ?_
  by_cases hp : s.phase = .connected
  · obtain ⟨i, hi, -⟩ := hs.fit.held.2 hp
    rcases send_cases ask hs.fit.held hi (Frame.encode_bare kind) with
      ⟨-, e⟩ | ⟨hf, -⟩ | ⟨fault, text, -, -, e⟩
    · exact preserves_of_ok e fun hs => hs.telling rfl
    · exact absurd hf hs.willing
    · refine .after (fun hs => ?_)
        (.bind (staysReady_disconnect ha false _) fun _ v => .pure false v) e
      exact (hs.telling (e := .unsent i fault) rfl).plain
        (alike_record _ (e := .log .info text) rfl) rfl
  · exact preserves_of_ok (send_of_apart hp _) id

/-! ### Ticking -/

/-- What was received, and when, does not matter for how a connection takes writes. -/
theorem Ready.received (hs : s.Ready A) (i : Nat) (f : Receiver → Receiver) (now : Float) :
    Ready A { s with
      link := { s.link with lastTraffic := now }
      network := { s.network with
        connections := s.network.connections.modify i fun c =>
          { c with receiver := f c.receiver } } } := by
  refine hs.plain (alike_onConnection s i _ now) ?_
  unfold writeFault?
  cases s.link.writesTo with
  | none => rfl
  | some j =>
    simp only [Option.bind_some, Array.getElem?_modify]
    cases s.network.connections[j]? <;> by_cases hij : i = j <;> simp [hij]

/-- A report that cannot be read is an answer as well. -/
theorem looks_ready (ha : Asks A ask) : Looks (Ready A) (fun e _ => e = .tooDeep) ask where
  log _ _ hs := hs.plain (alike_record _ rfl) rfl
  takes {s i _ f rest} _ _ _ hs :=
    (hs.received i (fun r => { r with inbox := rest }) s.loop.now).telling (e := .handled i f) rfl
  report report hr hs := hs.change (.report _ report hr) rfl
  alive := staysReady_send ha .pingAlive
  drop := staysReady_disconnect ha
  gone _ hs := hs.telling rfl
  silent _ _ hs := (hs.telling rfl).plain (alike_traffic _ _) rfl
  unheld _ _ hs := hs.plain (alike_traffic _ _) rfl
  calm _ _ hs := hs.telling rfl

theorem staysReady_tick (ha : Asks A ask) (s : Session) : StaysReady A (tick ask) s :=
  preserves_tick (looks_ready ha) s

/-! ### Connecting -/

theorem setOut_answers (ask : Request → Act Session Answer) (host : String) (port : Number)
    (h : s.phase = .disconnected) : (setOut ask host port).Answers s := by
  intro e v he
  have hm : s.phase.canBecome .connecting = true := by rw [h]; rfl
  unfold setOut at he
  rw [bind_apply, moveTo_apply hm] at he
  cases ht : tellState ask s.phase .connecting s.link.life.listeners (s.movedTo .connecting) with
  | ok a t =>
    rw [ht] at he
    cases he
  | error e' t =>
    rw [ht] at he
    cases he
    exact Fault.eq_tooDeep (announce_error _ _ ht)

/-- To drop what there is of a connection ends with somebody having set out again. -/
def Overtaken (ask : Request → Act Session Answer) (s : Session) : Prop :=
  s.phase ≠ .disconnected ∧ ∃ t, disconnect ask false s = .ok () t ∧ t.phase = .connecting

theorem connect_of_overtaken {host : String} {port : Number} (h : s.loop.running = true)
    (ho : s.Overtaken ask) :
    ∃ t, connect ask host port s = .error (.badTransition .connecting .connecting) t := by
  obtain ⟨hp, t, ht, hc⟩ := ho
  refine ⟨t.telling (.refused t.phase .connecting), ?_⟩
  rw [connect_apply ask host port h, if_neg hp, bind_of_ok ht,
    setOut_of_not ask host port (by rw [hc]; nofun), hc]

theorem connect_answers (ha : Asks A ask) (hs : s.Ready A) (host : String) (port : Number)
    (h : s.loop.running = true) (ho : ¬ s.Overtaken ask) :
    (connect ask host port).Answers s := by
  intro e v he
  rw [connect_apply ask host port h] at he
  split at he
  · exact setOut_answers ask host port ‹_› e v he
  · rename_i hp
    have hfine := (staysReady_disconnect ha false s).answers hs
    cases hd : disconnect ask false s with
    | error e' t =>
      rw [bind_of_error hd] at he
      cases he
      exact hfine e _ hd
    | ok _ t =>
      rw [bind_of_ok hd] at he
      refine setOut_answers ask host port ?_ e v he
      have hapart := (apart_of_disconnect ha hs hd).2
      have hdown : t.phase ≠ .connecting := fun hc => ho ⟨hp, t, hd, hc⟩
      cases hc : t.phase <;> first | rfl | contradiction

/-- Every session of a run is fit. Where one is, at a point of a run or while listeners run,
and its transport does not refuse what is written: to disconnect, to tick and to send a frame
of the catalog ends with an answer, unless calls are nested too deep. Where the loop runs, so
does to connect if and only if no listener sets out again while the link drops what there is;
and if one does, it fails with the step from connecting to connecting. -/
theorem answers_unless_overtaken (link pacer : Settings) (store : Store) (outcomes : List Outcome)
    (probe : Option (List (Option Json)))
    (h : Run (fun _ => True) (start link pacer store outcomes probe) s) :
    s.Fit (fun _ => True) ∧ ∀ u : Session, u.Ready (fun _ => True) → ∀ depth,
      (∀ notify, (disconnect (perform depth) notify).Answers u) ∧
      (tick (perform depth)).Answers u ∧
      (∀ kind : Kind, (send (perform depth) kind.code).Answers u) ∧
      (u.loop.running = true → ∀ host port,
        ((connect (perform depth) host port).Answers u ↔ ¬ u.Overtaken (perform depth)) ∧
        (u.Overtaken (perform depth) → ∃ t, connect (perform depth) host port u =
          .error (.badTransition .connecting .connecting) t)) := by
  refine ⟨?_, fun u hu depth => ?_⟩
  · have hrace : ∀ o ∈ outcomes, Script.Within (fun _ => True) o.race :=
      fun o _ => script_within_of_all (fun _ => trivial) o.race
    exact (fit_start link pacer store probe hrace).run h
  · have ha := works_perform (A := fun _ => True) depth
    refine ⟨fun notify => (staysReady_disconnect ha notify u).answers hu,
      (staysReady_tick ha u).answers hu, fun kind => (staysReady_send ha kind u).answers hu,
      fun hr host port =>
        ⟨⟨fun hfine ho => ?_, connect_answers ha hu host port hr⟩, connect_of_overtaken hr⟩⟩
    obtain ⟨t, ht⟩ : ∃ t, connect (perform depth) host port u = .error _ t :=
      connect_of_overtaken hr ho
    cases hfine _ t ht

/-- A listener that connects whenever the link has disconnected. -/
theorem overtaken_of_connect :
    let s := (start {} {} .empty [] none).after
      [.ask (.onState "again" (fun _ => [.ask (.connect "127.0.0.1" (.int 2))]) (some .disconnected)),
        .ask (.connect "127.0.0.1" (.int 1))]
    s.phase = .connecting ∧ ∃ t, connect (perform maxDepth) "127.0.0.1" (.int 3) s =
      .error (.badTransition .connecting .connecting) t := by
  intro s
  have hrun := run_of_steps (A := fun _ => True) (s := start {} {} .empty [] none)
    [.ask (.onState "again" (fun _ => [.ask (.connect "127.0.0.1" (.int 2))]) (some .disconnected)),
      .ask (.connect "127.0.0.1" (.int 1))]
    (fun step _ => stepWithin_of_all (fun _ => trivial) step) (by decide +kernel)
  obtain ⟨hfit, hcalls⟩ := answers_unless_overtaken {} {} .empty [] none hrun
  have hready : s.Ready (fun _ => True) := ⟨hfit, by decide +kernel⟩
  have hover : s.Overtaken (perform maxDepth) := ⟨by decide +kernel, _, rfl, by decide +kernel⟩
  refine ⟨by decide +kernel, ?_⟩
  exact ((hcalls s hready maxDepth).2.2.2 (by decide +kernel) _ _).2 hover

end Session
end DiagnosticWatch
