/-
# Listeners that stand by

Some listeners leave nothing but talk in the trace: their calls, the answers
that they get, and what is logged of them (`Session.Chats`). They may fail, and
they may ask for what is answered idly, such as for nothing at all
(`AnswersIdly`). Where all listeners are such ones, it is settled what becomes
of a link that disconnects without a word to the peer (`Session.Downed`).

Key definitions: `Session.Chats`, `AnswersIdly`, `Session.Tallies`,
`Session.Downed`.
Key theorems: `Session.chats_sayGoodbye`, `Session.downed_disconnect`.
-/
import DiagnosticWatch.Proofs.Session.Mute
import DiagnosticWatch.Proofs.Session.Setup
import DiagnosticWatch.Proofs.Session.Talk

namespace DiagnosticWatch
namespace Session

open Act

variable {A : Request → Prop} {K : Pacer → Prop} {s t u v : Session} {words : List Event}
  {ask : Request → Act Session Answer}

/-! ### Talk -/

/-- From `s` to `t` there is nothing but talk. -/
def Chats (s t : Session) : Prop :=
  ∃ words, t = s.tellingAll words ∧ ∀ e ∈ words, e.isTalk = true

theorem Chats.refl (s : Session) : Chats s s :=
  ⟨[], rfl, nofun⟩

theorem Chats.trans (h : Chats s t) (h' : Chats t u) : Chats s u := by
  obtain ⟨words, rfl, hwords⟩ := h
  obtain ⟨more, rfl, hmore⟩ := h'
  refine ⟨words ++ more, (tellingAll_append words more s).symm, fun e he => ?_⟩
  exact (List.mem_append.mp he).elim (hwords e) (hmore e)

theorem chats_telling (s : Session) {e : Event} (h : e.isTalk = true) : Chats s (s.telling e) :=
  ⟨[e], rfl, by simpa using h⟩

theorem Chats.link (h : Chats s t) : t.link = s.link := by
  obtain ⟨words, rfl, -⟩ := h
  rfl

theorem Chats.network (h : Chats s t) : t.network = s.network := by
  obtain ⟨words, rfl, -⟩ := h
  rfl

theorem Chats.pacer (h : Chats s t) : t.pacer = s.pacer := by
  obtain ⟨words, rfl, -⟩ := h
  rfl

/-- What is closed, signalled and written in `t` is the same as in `s`. -/
structure Tallies (s t : Session) : Prop where
  closes : ∀ j, t.closes j = s.closes j
  signals : t.signals = s.signals
  written : t.written = s.written

theorem Tallies.of_trace (h : t.trace = s.trace) : Tallies s t where
  closes _ := by rw [Session.closes, h, ← Session.closes]
  signals := by rw [Session.signals, h, ← Session.signals]
  written := by rw [Session.written, h, ← Session.written]

theorem Tallies.trans (h : Tallies s t) (h' : Tallies t u) : Tallies s u where
  closes j := (h'.closes j).trans (h.closes j)
  signals := h'.signals.trans h.signals
  written := h'.written.trans h.written

theorem tallies_telling (s : Session) {e : Event} (hs : e.signal? = none) (hw : e.write? = none)
    (hc : ∀ j, e.closes j = false) : Tallies s (s.telling e) where
  closes j := by
    unfold Session.closes telling Trace.record
    rw [List.countP_cons_of_neg (by simp [hc j])]
  signals := (hushed_record s hs hw).signals
  written := (hushed_record s hs hw).written

theorem tallies_tellingAll (s : Session) (h : ∀ e ∈ words, e.signal? = none ∧ e.write? = none ∧
    ∀ j, e.closes j = false) : Tallies s (s.tellingAll words) := by
  induction words generalizing s with
  | nil => exact .of_trace rfl
  | cons e words ih =>
    obtain ⟨hs, hw, hc⟩ := h e List.mem_cons_self
    rw [tellingAll_cons]
    exact (tallies_telling s hs hw hc).trans (ih _ fun e he => h e (List.mem_cons_of_mem _ he))

theorem Chats.tallies (h : Chats s t) : Tallies s t := by
  obtain ⟨words, rfl, hwords⟩ := h
  refine tallies_tellingAll s fun e he => ?_
  have htalk := hwords e he
  cases e <;> first | exact ⟨rfl, rfl, fun _ => rfl⟩ | cases htalk

/-! ### Idle answers -/

/-- Whatever is asked for within `A`, and while the pacer is as `K` says, is answered with no more
than talk. -/
def AnswersIdly (A : Request → Prop) (K : Pacer → Prop) (ask : Request → Act Session Answer) :
    Prop :=
  ∀ q, Request.Within A q → ∀ s, K s.pacer → ∃ a t, ask q s = .ok a t ∧ Chats s t

variable (ha : AnswersIdly A K ask) (hs : s.Attended A) (hk : K s.pacer)
include ha hk hs

theorem attends_chats :
    Attends A (Chats s) (fun e t => Chats s t ∧ e.isOrdinary = true) ask where
  talk he h := h.trans (chats_telling _ he)
  attended h := hs.congr_link h.link
  raised he h := ⟨h, he⟩
  caught _ h := h.1
  asks q hq t := .of_holds fun ht => by
    obtain ⟨a, u, hu, hchats⟩ := ha q hq t (ht.pacer ▸ hk)
    exact preserves_of_ok hu fun _ => ht.trans hchats

omit ha hs hk in
/-- An act that does not fail with an ordinary fault, nor with another one, answers. -/
theorem chats_of_stays {act : Act Session Unit} (h : Stays (Chats s) (·.isOrdinary = true) act s)
    (hnone : ∀ e v, act s = .error e v → e.isOrdinary = false) :
    ∃ t, act s = .ok () t ∧ Chats s t := by
  obtain ⟨hok, herror⟩ := h (.refl s)
  cases hact : act s with
  | ok _ t => exact ⟨t, rfl, hok () t hact⟩
  | error e t =>
    have hordinary : e.isOrdinary = true := (herror e t hact).2
    rw [hnone e t hact] at hordinary
    cases hordinary

theorem chats_tellChange :
    ∃ t, tellChange ask s.link.signal.listeners s = .ok () t ∧ Chats s t :=
  chats_of_stays (preserves_tellChange (attends_chats ha hs hk) s)
    fun _ _ h => announce_error _ _ h

theorem chats_sayGoodbye (old : Phase) :
    ∃ t, sayGoodbye ask old s.link.life.listeners s = .ok () t ∧ Chats s t := by
  exact chats_of_stays (preserves_sayGoodbye (attends_chats ha hs hk) old s)
    fun _ _ h => sayGoodbye_error h

omit ha hs hk

/-! ### Disconnecting -/

/-- From `u` the link has dropped what connection and what dial there was, without a word to the
peer: the connection is closed once, and there is no report and no marked change any more, which was
signalled once if there were reports. -/
structure Downed (u t : Session) : Prop where
  link : t.link = { u.link with
    life := ⟨.disconnected, u.link.life.listeners⟩
    signal := u.link.signal.reset
    store := .empty
    writesTo := none
    readsFrom := none
    dial := none }
  connections : t.network.connections = u.closedHeld.network.connections
  pacer : t.pacer = u.pacer
  closes : ∀ j, t.closes j = u.closes j + if u.link.writesTo = some j then 1 else 0
  signals : t.signals = u.signals ++ if u.link.store.isEmpty then [] else [[]]
  written : t.written = u.written

theorem Downed.phase (h : Downed u t) : t.phase = .disconnected := by
  rw [Session.phase, h.link]

/-- The link is downed just as well if something was told before, or its dial was called off. -/
theorem Downed.of_tallies (h : Downed v t) (htallies : Tallies u v)
    (hl : v.link = { u.link with dial := v.link.dial })
    (hc : v.network.connections = u.network.connections) (hp : v.pacer = u.pacer) : Downed u t where
  link := by rw [h.link, hl]
  connections := by
    have hw : v.link.writesTo = u.link.writesTo := by rw [hl]
    rw [h.connections]
    unfold closedHeld
    rw [hw]
    split
    · simp only [closed, hc]
    · exact hc
  pacer := h.pacer.trans hp
  closes j := by rw [h.closes, htallies.closes, hl]
  signals := by rw [h.signals, htallies.signals, hl]
  written := h.written.trans htallies.written

theorem left_link (s : Session) : s.left.link = s.gone.link := by
  rw [left_eq]
  rfl

theorem tallies_left (s : Session) :
    (∀ j, s.left.closes j = s.closes j + if s.link.writesTo = some j then 1 else 0) ∧
    s.left.signals = s.signals ∧ s.left.written = s.written := by
  let step : List Event := if s.phase = .disconnected then [] else [.moved s.phase .disconnected]
  have hevents : s.left.trace.events = s.trace.events ++ (s.closing ++ step) := by
    rw [left_eq]
    exact events_tellingAll _ s.gone
  have hnone {β : Type} (f : Event → Option β) (hclose : ∀ i, f (.close i) = none)
      (hmoved : ∀ old new, f (.moved old new) = none) : (s.closing ++ step).filterMap f = [] := by
    refine List.filterMap_eq_nil_iff.mpr fun e he => ?_
    rcases List.mem_append.mp he with he | he
    · obtain ⟨i, -, rfl⟩ := List.mem_map.mp he
      exact hclose i
    · simp only [step] at he
      split at he
      · cases he
      · cases List.mem_singleton.mp he
        exact hmoved _ _
  refine ⟨closes_left s, ?_, ?_⟩
  · unfold Session.signals
    rw [hevents, List.filterMap_append, hnone _ (fun _ => rfl) (fun _ _ => rfl), List.append_nil]
  · unfold Session.written
    rw [hevents, List.filterMap_append, hnone _ (fun _ => rfl) (fun _ _ => rfl), List.append_nil]

theorem forgotten_link (s : Session) :
    s.forgotten.link = { s.link with signal := s.link.signal.reset, store := .empty } := by
  cases h : s.link.store.isEmpty with
  | true => rw [forgotten_of_empty h]; rfl
  | false => rw [forgotten_of_reports h]; rfl

theorem forgotten_tallies (s : Session) :
    (∀ j, s.forgotten.closes j = s.closes j) ∧
    s.forgotten.signals = s.signals ++ (if s.link.store.isEmpty then [] else [[]]) ∧
    s.forgotten.written = s.written := by
  cases h : s.link.store.isEmpty with
  | true =>
    rw [forgotten_of_empty h]
    have htallies : Tallies s s.emptied := .of_trace rfl
    exact ⟨htallies.closes, by simpa using htallies.signals, htallies.written⟩
  | false =>
    rw [forgotten_of_reports h]
    refine ⟨fun j => ?_, ?_, ?_⟩
    · show List.countP _ (_ :: _) = _
      rw [List.countP_cons_of_neg (by simp [Event.closes])]
      rfl
    · unfold Session.signals
      rw [telling, Trace.events_record, List.filterMap_append]
      rfl
    · unfold Session.written
      rw [telling, Trace.events_record, List.filterMap_append]
      exact List.append_nil _

/-- The link leaves its connection, where no dial is under way. -/
theorem downed_leave (ha : AnswersIdly A K ask) (hs : s.Attended A) (hk : K s.pacer)
    (hd : s.link.dial = none) : ∃ t, leave ask s = .ok () t ∧ Downed s t := by
  have hpacer : s.left.pacer = s.pacer := by
    rw [left_eq]
    rfl
  obtain ⟨u, hu, hchats⟩ := chats_sayGoodbye ha hs.left (hpacer ▸ hk) s.phase
  have hu' : u.Attended A := hs.left.congr_link hchats.link
  have hforgotten : u.forgotten.pacer = s.pacer := by
    rw [← hpacer, ← hchats.pacer]
    unfold forgotten
    split <;> rfl
  have hforget : ∃ t, forget ask u = .ok () t ∧ Chats u.forgotten t := by
    rw [forget_apply]
    split
    · exact ⟨_, rfl, .refl _⟩
    · exact chats_tellChange ha hu'.forgotten (hforgotten ▸ hk)
  obtain ⟨t, ht, hchats'⟩ := hforget
  refine ⟨t, ?_, ?_⟩
  · rw [leave_apply]
    rw [left_listeners] at hu
    rw [bind_of_ok hu, ht]
  obtain ⟨hcloses, hsignals, hwritten⟩ := tallies_left s
  obtain ⟨hcloses', hsignals', hwritten'⟩ := forgotten_tallies u
  have htallies := hchats.tallies
  have htallies' := hchats'.tallies
  have hulink : u.link = s.gone.link := hchats.link.trans (left_link s)
  refine ⟨?_, ?_, hchats'.pacer.trans hforgotten, fun j => ?_, ?_, ?_⟩
  · rw [hchats'.link, forgotten_link, hulink]
    show { s.link with
      life := ⟨.disconnected, s.link.life.listeners⟩
      signal := s.link.signal.reset
      store := .empty
      writesTo := none
      readsFrom := none
      dial := s.link.dial } = _
    rw [hd]
  · have hnetwork : u.forgotten.network = u.network := by
      unfold forgotten
      split <;> rfl
    rw [hchats'.network, hnetwork, hchats.network, left_eq]
    rfl
  · rw [htallies'.closes, hcloses', htallies.closes, hcloses]
  · rw [htallies'.signals, hsignals', htallies.signals, hsignals, hulink]
    rfl
  · rw [htallies'.written, hwritten', htallies.written, hwritten]

/-- Where the listeners stand by, to disconnect without a word to the peer downs the link. -/
theorem downed_disconnect (ha : AnswersIdly A K ask) (hs : s.Attended A) (hk : K s.pacer) :
    ∃ t, disconnect ask false s = .ok () t ∧ Downed s t := by
  obtain ⟨v, hv, hl, htrace, hc, hp⟩ := callOff_keeps s
  have hattended : v.Attended A := hs.congr (by rw [hl]) (by rw [hl])
  obtain ⟨t, ht, hdowned⟩ := downed_leave ha hattended (hp ▸ hk) (by rw [hl])
  refine ⟨t, ?_, hdowned.of_tallies (.of_trace htrace) (by rw [hl]) hc hp⟩
  rw [disconnect_eq, bind_of_ok hv]
  exact ht

end Session
end DiagnosticWatch
