/-
# What a call says on a connection

What `disconnect` and `tick` say on the connections, whatever the listeners do
meanwhile. Who disconnects says a word of farewell only if that is asked for
and the peer is there, and closes the connection. A tick looks at the
connection there is, before all else and only once. With what can be read off
every talk this is all that is ever written.

Key definitions: `Session.leaving`, `Session.Unlooked`, `Session.LookedOnce`.
Key theorems: `Session.talk_of_apart`, `Session.lands_leaving`,
`Session.lands_look`, `Session.talk_of_run`.
-/
import DiagnosticWatch.Proofs.Session.Replies

namespace DiagnosticWatch
namespace Session

open Act

variable {A : Request → Prop} {s t u : Session} {ask : Request → Act Session Answer} {i : Nat}
  {e : Event}

/-! ### Leaving -/

/-- Nothing is said in the course of work while there is no connection. The induction is on
the work, and no work makes a connection. -/
theorem talk_of_apart (h : Work A s t) (hs : s.Fit A) (hp : s.phase ≠ .connected) (j : Nat) :
    t.talk j = s.talk j := by
  induction h with
  | refl => rfl
  | change first _ ih =>
    rw [ih (hs.change first) (phase_of_work (.of_change first) hp), talk_of_change first]
  | speak held => exact absurd (hs.held.connected_iff.mpr (by rw [held]; nofun)) hp
  | @drop s t u _ _ last tells listeners _ ih ih' =>
    have hw := (hs.held.1 hp).1
    have hwords : t.talk j = s.talk j := by
      unfold Parting at last
      rw [hw] at last
      subst last
      simpa using talk_of_tells (i := j) tells nofun j
    have hleft : t.left.phase ≠ .connected := by
      rw [phase_left]
      nofun
    have ht := (hs.tells tells).left
    have hu := (ht.work listeners).forgotten
    have hforgotten : u.forgotten.phase ≠ .connected := by
      rw [phase_forgotten]
      exact phase_of_work listeners hleft
    rw [ih' hu hforgotten, talk_forgotten, ih ht hleft, talk_left, writesTo_of_tells tells, hw, hwords]
    simp
  | connect host port down listeners apart _ ih ih' =>
    have hout := hs.part (.setOut down)
    rw [ih' ((hout.work listeners).part (.dial host port apart)) apart]
    exact (ih hout nofun).trans (talk_movedTo _ _ _)

/-- Who leaves a connection closes it, and nothing is said on any while the listeners
run. -/
theorem lands_leave_talk (ha : Asks A ask) (hs : s.Fit A) (j : Nat) :
    (leave ask).Lands (fun t => t.talk j = s.talk j ++
      if s.link.writesTo = some j then [.close j] else []) s := by
  intro t ht
  obtain ⟨u, listeners, rest⟩ := work_of_leave ha hs ht
  have hleft : s.left.phase ≠ .connected := by
    rw [phase_left]
    nofun
  have hforgotten : u.forgotten.phase ≠ .connected := by
    rw [phase_forgotten]
    exact phase_of_work listeners hleft
  rw [talk_of_apart rest (hs.left.work listeners).forgotten hforgotten, talk_forgotten,
    talk_of_apart listeners hs.left hleft, talk_left]

/-- What is said on connection `i` when the link disconnects: a word of farewell and the
closing if that is asked for and the peer is there, and only the closing otherwise. A
transport that refuses the word is not closed. -/
def leaving (notify : Bool) (i : Nat) (s : Session) : List Event :=
  if s.link.writesTo = some i then
    if notify && s.isUp then
      match s.writeFault? with
      | none => [.write i (Frame.bare .disconnect), .close i]
      | some .refused => [.unsent i .refused]
      | some fault => [.unsent i fault, .close i]
    else [.close i]
  else []

theorem leaving_congr (link : t.link = { s.link with dial := none })
    (connections : t.network.connections = s.network.connections) (notify : Bool) (i : Nat) :
    t.leaving notify i = s.leaving notify i := by
  have hwrites : t.link.writesTo = s.link.writesTo := by rw [link]
  have hreceiver : t.receiver? = s.receiver? := by
    unfold receiver?
    rw [link, connections]
  have hup : t.isUp = s.isUp := by
    unfold isUp phase
    rw [hreceiver, link]
  have hfault : t.writeFault? = s.writeFault? := by simp only [writeFault?, link, connections]
  unfold leaving
  rw [hwrites, hup, hfault]

/-- A word that was told on the connection, and the closing. -/
theorem lands_leave_after (ha : Asks A ask) (hs : s.Fit A) (word : Nat → Event)
    (hi : s.link.writesTo = some i) (about : (word i).connection? = some i)
    (tells : Tells s [word i] t) (j : Nat) :
    (leave ask).Lands (fun u => u.talk j = s.talk j ++
      if s.link.writesTo = some j then [word j, .close j] else []) t := by
  intro u hu
  have htalk := talk_of_tells tells (by simpa using about) j
  rw [lands_leave_talk ha (hs.tells tells) j u hu, writesTo_of_tells tells, htalk, hi]
  by_cases hj : i = j
  · subst hj
    simp
  · simp [hj, Ne.symm hj]

theorem lands_part_leaving (ha : Asks A ask) (hs : s.Fit A) (notify : Bool) (j : Nat) :
    (part ask notify).Lands (fun t => t.talk j = s.talk j ++ s.leaving notify j) s := by
  unfold part
  cases notify with
  | false =>
    simp only [leaving, Bool.false_and, Bool.false_eq_true, ↓reduceIte]
    exact lands_leave_talk ha hs j
  | true =>
    rcases takeLeave_cases hs.held with
      ⟨hup, e⟩ | ⟨i, hup, hi, ⟨hf, e⟩ | ⟨hf, e⟩ | ⟨fault, text, hr, hf, e⟩⟩
    · simp only [leaving, hup, Bool.and_false, Bool.false_eq_true, ↓reduceIte]
      exact lands_congr (bind_of_ok e) (lands_leave_talk ha hs j)
    · simp only [leaving, hup, hf, Bool.and_self, ↓reduceIte]
      exact lands_congr (bind_of_ok e)
        (lands_leave_after ha hs (.write · _) hi rfl (.of_word s rfl) j)
    · refine lands_of_error (bind_of_error e) ?_
      have hword : Tells s [.unsent i .refused] (s.telling (.unsent i .refused)) := .of_word s rfl
      rw [talk_of_tells (i := i) hword (by simp [Event.connection?])]
      simp only [leaving, hup, hf, hi, Bool.and_self, ↓reduceIte, Option.some.injEq]
      by_cases hj : i = j
      · simp [hj]
      · simp [hj, Ne.symm hj]
    · have hleaving : s.leaving true j =
          if s.link.writesTo = some j then [.unsent j fault, .close j] else [] := by
        simp only [leaving, hup, hf, Bool.and_self, ↓reduceIte]
      rw [hleaving]
      have hword : Tells s [.unsent i fault] (s.telling (.unsent i fault)) := .of_word s rfl
      exact lands_congr (bind_of_ok e)
        (lands_leave_after ha hs (.unsent · fault) hi rfl (hword.log .debug text) j)

/-- What is said on a connection when the link disconnects, whatever the listeners do. -/
theorem lands_leaving (ha : Asks A ask) (hs : s.Fit A) (notify : Bool) (j : Nat) :
    (disconnect ask notify).Lands (fun t => t.talk j = s.talk j ++ s.leaving notify j) s := by
  obtain ⟨v, hv, link, trace, connections, -⟩ := callOff_keeps s
  obtain ⟨v', hv', tells, -⟩ := callOff_ok s
  cases hv.symm.trans hv'
  have htalk : v.talk j = s.talk j := by simp only [talk, trace]
  rw [disconnect_eq, ← leaving_congr link connections, ← htalk]
  exact lands_congr (bind_of_ok hv) (lands_part_leaving ha (hs.tells tells) notify j)

/-! ### Looking -/

/-- From `s` to `t` no tick looks at a connection, and the session stays fit. -/
def Unlooked (A : Request → Prop) (s t : Session) : Prop :=
  s.Fit A → t.Fit A ∧
    ∀ j, ∃ words, t.talk j = s.talk j ++ words ∧ ∀ finding, .looked j finding ∉ words

instance : IsPreorder Session (Unlooked A) where
  refl s hs := ⟨hs, fun j => ⟨[], (List.append_nil _).symm, fun _ => List.not_mem_nil⟩⟩
  trans s t u h h' hs := by
    obtain ⟨ht, hst⟩ := h hs
    obtain ⟨hu, htu⟩ := h' ht
    refine ⟨hu, fun j => ?_⟩
    obtain ⟨words, hwords, hnone⟩ := hst j
    obtain ⟨more, hmore, hnone'⟩ := htu j
    refine ⟨words ++ more, by rw [hmore, hwords, List.append_assoc], fun finding hm => ?_⟩
    exact (List.mem_append.mp hm).elim (hnone finding) (hnone' finding)

theorem unlooked_of_change (h : Change A s t) : Unlooked A s t :=
  fun hs => ⟨hs.change h, fun j =>
    ⟨[], by rw [talk_of_change h, List.append_nil], fun _ => List.not_mem_nil⟩⟩

theorem unlooked_of_alike (h : Alike s t) : Unlooked A s t :=
  unlooked_of_change (.plain h)

theorem unlooked_telling (s : Session) (he : e.isWord = true)
    (hl : ∀ j finding, e ≠ .looked j finding) :
    Unlooked A s (s.telling e) := by
  have hword : Tells s [e] (s.telling e) := .of_word s he
  refine fun hs => ⟨hs.tells hword, fun j => ⟨_, talk_of_told (told_of_tells hword) j, ?_⟩⟩
  intro finding hm
  have hm' := (List.mem_filter.mp (List.mem_reverse.mp hm)).1
  exact hl j finding (List.mem_singleton.mp (List.mem_reverse.mp hm')).symm

theorem leads_unlooked_disconnect (ha : Asks A ask) (notify : Bool) (s : Session) :
    Leads (Unlooked A) (disconnect ask notify) s := by
  intro t ht hs
  refine ⟨hs.work (works_disconnect ha notify s t ht hs), fun j =>
    ⟨s.leaving notify j, lands_leaving ha hs notify j t ht, fun finding => ?_⟩⟩
  unfold leaving
  repeat' split
  all_goals simp

theorem speaks_unlooked (w : Session) : Speaks (Unlooked A w) (Ordinarily (Unlooked A w)) where
  written {s} _ _ hs := trans_of (Unlooked A) hs (unlooked_telling s rfl (by simp))
  unsent {s} _ _ hs := trans_of (Unlooked A) hs (unlooked_telling s rfl (by simp))
  log {s} _ _ hs := trans_of (Unlooked A) hs (unlooked_of_alike (alike_record s rfl))
  raised _ hs _ := hs
  caught he hs := hs he

/-- Whatever a tick does after its look, it does not look again. -/
theorem handles_unlooked (ha : Asks A ask) (w : Session) :
    Handles (Unlooked A w) (Ordinarily (Unlooked A w)) ask where
  log := (speaks_unlooked w).log
  takes {s i _ f rest} _ _ _ hs := by
    have hread := unlooked_of_alike (A := A) (alike_onConnection s i
      (fun c => { c with receiver := { c.receiver with inbox := rest } }) s.loop.now)
    exact trans_of (Unlooked A) hs
      (trans_of (Unlooked A) hread (unlooked_telling (e := .handled i f) _ rfl (by simp)))
  report {s} report hr hs := trans_of (Unlooked A) hs (unlooked_of_change (.report s report hr))
  alive := preserves_send (speaks_unlooked w)
    (fun s => (leads_unlooked_disconnect ha false s).preserves w) _
  drop notify s := (leads_unlooked_disconnect ha notify s).preserves w

/-- What a tick finds on the connection that there is. -/
def finding (s : Session) : Finding :=
  if !s.isUp then .gone
  else if s.link.settings.keepAliveInterval.below (s.loop.now - s.link.lastTraffic) then .silent
  else .calm

/-- From `s` to `t` a tick looked at the connection that there is in `s`, before all else
and only once. -/
def LookedOnce (s : Session) (finding : Finding) (t : Session) : Prop :=
  ∀ j, ∃ rest, t.talk j =
    s.talk j ++ (if s.link.writesTo = some j then [.looked j finding] else []) ++ rest ∧
      ∀ finding, .looked j finding ∉ rest

theorem lands_after_look {α : Type} (hs : s.Fit A) (hi : s.link.writesTo = some i)
    {finding : Finding} {act : Act Session α}
    (h : Leads (Unlooked A) act (s.telling (.looked i finding))) :
    act.Lands (LookedOnce s finding) (s.telling (.looked i finding)) := by
  have hlook : Tells s [.looked i finding] (s.telling (.looked i finding)) := .of_word s rfl
  intro t ht j
  obtain ⟨-, hrest⟩ := h t ht (hs.tells hlook)
  obtain ⟨rest, hrest, hnone⟩ := hrest j
  refine ⟨rest, ?_, hnone⟩
  rw [hrest, talk_of_tells (i := i) hlook (by simp [Event.connection?]), hi]
  by_cases hj : i = j
  · simp [hj]
  · simp [hj, Ne.symm hj]

/-- A tick looks at the connection that there is, before all else and only once. -/
theorem lands_look (ha : Asks A ask) (hs : s.Fit A) :
    (tick ask).Lands (LookedOnce s s.finding) s := by
  unfold tick
  refine lands_congr (get_bind_apply _ s) ?_
  split
  · rename_i hp
    refine lands_of_ok rfl fun j => ⟨[], ?_, fun _ => List.not_mem_nil⟩
    simp [(hs.held.1 hp).1]
  rename_i hp
  obtain ⟨i, hi, -⟩ := hs.held.2 (Decidable.not_not.mp hp)
  have hlands : ∀ {finding : Finding} {act : Act Session Unit}, s.finding = finding →
      Leads (Unlooked A) act (s.telling (.looked i finding)) →
      (tellOfHeld (.looked · finding) >>= fun _ => act).Lands (LookedOnce s s.finding) s := by
    rintro _ act rfl h
    exact lands_congr (bind_of_ok (tellOfHeld_apply hi _)) (lands_after_look hs hi h)
  split
  · rename_i hup
    refine hlands (if_pos hup) (leads_of_preserves ?_)
    have h := handles_unlooked ha (s.telling (.looked i .gone))
    split <;> exact .bind (preserves_tell (h.log _ _)) fun _ v => h.drop false v
  rename_i hup
  split
  · rename_i hsilent
    refine hlands (by rw [finding, if_neg hup, if_pos hsilent]) ?_
    refine Leads.step (onLink_apply _ _) (unlooked_of_alike (alike_traffic _ _)) ?_
    refine leads_of_preserves (.bind ((handles_unlooked ha _).alive _) fun sent v => ?_)
    exact .ite (preserves_drainAll (handles_unlooked ha _) v) (.pure () v)
  · rename_i hsilent
    exact hlands (by rw [finding, if_neg hup, if_neg hsilent])
      (leads_of_preserves (preserves_drainAll (handles_unlooked ha _) _))

/-! ### Runs -/

/-- What is written on a connection in a run in which nobody asks for a frame that is not in
the catalog: whole frames without a body, and then at most one closing. All that is called
for is written at once, as long as writes succeed, and nothing else is written but a word of
farewell right before the closing, of which there is none where the peer asked to
disconnect, the stream failed or was closed, or a write failed. Who disconnects says the
word only if that is asked for and the peer is there. A tick looks at its connection once,
before it handles a frame, and only what it finds may call for a sign of life. -/
theorem talk_of_run (link pacer : Settings) (store : Store) (outcomes : List Outcome)
    (probe : Option (List (Option Json)))
    (ho : ∀ o ∈ outcomes, Script.Within Request.Cataloged o.race)
    (h : Run Request.Cataloged (start link pacer store outcomes probe) s) (i : Nat) :
    Written i (s.closes i ≠ 0) (s.talk i) ∧
    (∀ before e after, s.talk i = before ++ e :: after → InPlace i before e after) ∧
    (∀ e ∈ s.talk i, e.isEnd = true → ∀ before bytes after,
      s.talk i = before ++ .write i bytes :: after →
        ∃ earlier cue, before = earlier ++ [cue] ∧ cue.callsFor? = some bytes) ∧
    s.Fit Request.Cataloged ∧ ∀ u : Session, u.Fit Request.Cataloged → ∀ depth,
      (∀ notify, (disconnect (perform depth) notify).Lands
        (fun t => ∀ j, t.talk j = u.talk j ++ u.leaving notify j) u) ∧
      (tick (perform depth)).Lands (LookedOnce u u.finding) u := by
  obtain ⟨-, hrec⟩ := recorded_of_run ho h
  have hfit : s.Fit Request.Cataloged := (fit_start link pacer store probe ho).run h
  have hplace : ∀ before e after, s.talk i = before ++ e :: after → InPlace i before e after := by
    intro before e after split
    by_cases hc : s.closes i = 0
    · exact (hrec.going i hc).placed.inPlace split
    · exact (hrec.gone i hc).placed.inPlace split
  refine ⟨?_, hplace,
    fun e he hend before bytes after split => called_for_of_end hplace he hend split, hfit,
    fun u hu depth => ⟨fun notify t ht j => ?_, lands_look (works_perform depth) hu⟩⟩
  · by_cases hc : s.closes i = 0
    · simpa [hc] using (hrec.going i hc).written fun _ h => h
    · simpa [hc] using (hrec.gone i hc).written fun _ h => h
  · exact lands_leaving (works_perform depth) hu notify j t ht

theorem talk_of_disconnect :
    let s := (start {} {} .empty [⟨.opens, .int 0, .none, [], false, []⟩] none).after
      [.ask (.connect "127.0.0.1" (.int 27099)), .pass (.int 0), .ask (.send 32),
        .ask (.disconnect true)]
    s.talk 0 = [.asked 0 32, .write 0 (Frame.bare .pingAlive), .write 0 (Frame.bare .disconnect),
      .close 0] ∧ Written 0 true (s.talk 0) ∧
    InPlace 0 [.asked 0 32, .write 0 (Frame.bare .pingAlive)] (.write 0 (Frame.bare .disconnect))
      [.close 0] := by
  intro s
  have hwithin : ∀ step ∈ [Step.ask (.connect "127.0.0.1" (.int 27099)), .pass (.int 0),
      .ask (.send 32), .ask (.disconnect true)], StepWithin Request.Cataloged step := by
    intro step hm
    simp only [List.mem_cons, List.not_mem_nil, or_false] at hm
    rcases hm with rfl | rfl | rfl | rfl
    · exact Request.within_plain trivial rfl
    · trivial
    · exact Request.within_plain ⟨.pingAlive, rfl⟩ rfl
    · exact Request.within_plain trivial rfl
  have hrun := run_of_steps (s := start {} {} .empty [⟨.opens, .int 0, .none, [], false, []⟩] none)
    _ hwithin (by decide +kernel)
  have hrace : ∀ o ∈ [(⟨.opens, .int 0, .none, [], false, []⟩ : Outcome)],
      Script.Within Request.Cataloged o.race := by
    intro o ho
    cases List.mem_singleton.mp ho
    exact Script.within_nil _
  have htalk : s.talk 0 = [.asked 0 32, .write 0 (Frame.bare .pingAlive),
      .write 0 (Frame.bare .disconnect), .close 0] := rfl
  have hclosed : decide (s.closes 0 ≠ 0) = true := by decide +kernel
  obtain ⟨hwritten, hplace, -⟩ := talk_of_run {} {} .empty _ none hrace hrun 0
  exact ⟨htalk, hclosed ▸ hwritten, hplace _ _ _ htalk⟩

end Session
end DiagnosticWatch
