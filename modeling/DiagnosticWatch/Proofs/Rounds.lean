/-
# Who is called in a round

Listeners come and go, also in the middle of a round of calls and in the rounds that begin
inside it. A round still calls those that are registered when it begins, once for each
registration and in order, whatever the calls do and however they end. What comes or goes
meanwhile counts from the next round on that begins, be it inside this one.

A trace is checked by playing it on a roster, which keeps for each round that is open who is
still to be called. What a request tells can be played on any roster and leaves the rounds that
are open as they are; so the rounds of a whole run close, and each has called all of its own.

Key definitions: `Event.beat?`, `registeredAfter`, `roundOf?`, `CallsAll`, `Roster.play?`, `Played`.
Key theorems: `Roster.roundOf_of_play`, `callsAll_of_play`, `plays_of_announce`,
`each_registration_is_called_once`.
-/
import DiagnosticWatch.Proofs.ChangeSignal
import DiagnosticWatch.Proofs.Lifecycle

namespace DiagnosticWatch

/-- What happens to listeners. -/
inductive Beat where
  /-- A listener is registered behind the others. -/
  | comes (serial : ℕ)
  /-- A listener loses its first registration. -/
  | goes (serial : ℕ)
  /-- A round of calls begins. -/
  | begins
  /-- A listener is called. -/
  | calls (serial : ℕ)
  /-- A round of calls ends. -/
  | ends

/-- What an event says of listeners, if anything. -/
def Event.beat? : Event → Option Beat
  | .registered k => some (.comes k)
  | .removed k => some (.goes k)
  | .signal _ | .moved .. => some .begins
  | .invoked k | .called k .. => some (.calls k)
  | .delivered _ | .announced => some .ends
  | _ => none

/-- What some events say of listeners. -/
def beatsOf (events : List Event) : List Beat :=
  events.filterMap Event.beat?

/-- The registrations after some beats. -/
def registeredAfter (registered : List ℕ) : List Beat → List ℕ
  | [] => registered
  | .comes k :: beats => registeredAfter (registered ++ [k]) beats
  | .goes k :: beats => registeredAfter (registered.erase k) beats
  | _ :: beats => registeredAfter registered beats

/-- Who is called from here on until the round ends, apart from the calls of rounds inside it; so
many of these are open. Nothing if the round does not end. -/
def roundOf? : (inner : ℕ) → List Beat → Option (List ℕ)
  | _, [] => none
  | inner, .begins :: beats => roundOf? (inner + 1) beats
  | 0, .ends :: _ => some []
  | inner + 1, .ends :: beats => roundOf? inner beats
  | 0, .calls k :: beats => (roundOf? 0 beats).map (k :: ·)
  | inner, _ :: beats => roundOf? inner beats

/-- Every round calls those that are registered when it begins, once for each registration and
in order, and ends. -/
def CallsAll (registered : List ℕ) (events : List Event) : Prop :=
  ∀ before e after, events = before ++ e :: after → e.beat? = some .begins →
    roundOf? 0 (beatsOf after) = some (registeredAfter registered (beatsOf before))

theorem beatsOf_append (events more : List Event) :
    beatsOf (events ++ more) = beatsOf events ++ beatsOf more := List.filterMap_append

/-! ### Rosters -/

/-- Who is registered, and who is still to be called in each round that is open, the innermost
first. -/
structure Roster where
  registered : List ℕ
  rounds : List (List ℕ)

namespace Roster

/-- What a beat makes of a roster; nothing if it is out of turn. -/
def next? : Roster → Beat → Option Roster
  | ⟨ks, rounds⟩, .comes k => some ⟨ks ++ [k], rounds⟩
  | ⟨ks, rounds⟩, .goes k => some ⟨ks.erase k, rounds⟩
  | ⟨ks, rounds⟩, .begins => some ⟨ks, ks :: rounds⟩
  | ⟨ks, (j :: todo) :: rounds⟩, .calls k => if j = k then some ⟨ks, todo :: rounds⟩ else none
  | ⟨ks, [] :: rounds⟩, .ends => some ⟨ks, rounds⟩
  | _, _ => none

/-- What some beats make of a roster. -/
def play? (r : Roster) (beats : List Beat) : Option Roster :=
  beats.foldlM next? r

variable {r r' : Roster} {beats more : List Beat}

theorem play_append : r.play? (beats ++ more) = (r.play? beats).bind (·.play? more) :=
  List.foldlM_append

theorem play_cons (b : Beat) : r.play? (b :: beats) = (r.next? b).bind (·.play? beats) :=
  List.foldlM_cons

theorem play_calls (ks todo : List ℕ) (rounds : List (List ℕ)) (k : ℕ) :
    play? ⟨ks, (k :: todo) :: rounds⟩ [.calls k] = some ⟨ks, todo :: rounds⟩ := by
  rw [play_cons, next?, if_pos rfl]
  rfl

/-- A call is that of the listener whose turn it is. -/
theorem next_calls {ks : List ℕ} {round : List ℕ} {rounds : List (List ℕ)} {k : ℕ}
    (h : next? ⟨ks, round :: rounds⟩ (.calls k) = some r') :
    ∃ todo, round = k :: todo ∧ r' = ⟨ks, todo :: rounds⟩ := by
  cases round with
  | nil => cases h
  | cons j todo =>
    rw [next?] at h
    split_ifs at h with hj
    cases h
    exact ⟨todo, by rw [hj], rfl⟩

/-- A round ends when nobody is left to be called. -/
theorem next_ends {ks : List ℕ} {round : List ℕ} {rounds : List (List ℕ)}
    (h : next? ⟨ks, round :: rounds⟩ .ends = some r') : round = [] ∧ r' = ⟨ks, rounds⟩ := by
  cases round with
  | nil =>
    cases h
    exact ⟨rfl, rfl⟩
  | cons j todo => cases h

theorem registered_of_play (h : r.play? beats = some r') :
    r'.registered = registeredAfter r.registered beats := by
  induction beats generalizing r with
  | nil =>
    cases h
    rfl
  | cons b beats ih =>
    rw [play_cons] at h
    obtain ⟨u, hu, h⟩ := Option.bind_eq_some_iff.mp h
    rw [ih h]
    obtain ⟨ks, rounds⟩ := r
    cases b with
    | comes k | goes k | begins =>
      cases hu
      rfl
    | calls k =>
      cases rounds with
      | nil => cases hu
      | cons round rounds =>
        obtain ⟨todo, -, rfl⟩ := next_calls hu
        rfl
    | ends =>
      cases rounds with
      | nil => cases hu
      | cons round rounds =>
        obtain ⟨-, rfl⟩ := next_ends hu
        rfl

/-- A round that is closed in the end has called all that it had to call. -/
theorem roundOf_of_play {ks todo : List ℕ} {inner outer : List (List ℕ)}
    (h : play? ⟨ks, inner ++ todo :: outer⟩ beats = some r')
    (hr : r'.rounds.length ≤ outer.length) : roundOf? inner.length beats = some todo := by
  -- The rounds inside it grow and shrink meanwhile; only with none of them open is it its turn.
  induction beats generalizing ks todo inner with
  | nil =>
    cases h
    simp only [List.length_append, List.length_cons] at hr
    omega
  | cons b beats ih =>
    rw [play_cons] at h
    obtain ⟨u, hu, h⟩ := Option.bind_eq_some_iff.mp h
    cases b with
    | comes k | goes k =>
      cases hu
      rw [roundOf?]
      · exact ih h
      all_goals nofun
    | begins =>
      cases hu
      rw [roundOf?]
      exact @ih ks todo (ks :: inner) h
    | calls k =>
      cases inner with
      | nil =>
        obtain ⟨rest, rfl, rfl⟩ := next_calls hu
        have hrest : roundOf? 0 beats = some rest := @ih ks rest [] h
        rw [List.length_nil, roundOf?, hrest]
        rfl
      | cons round inner =>
        obtain ⟨rest, -, rfl⟩ := next_calls hu
        rw [List.length_cons, roundOf?]
        · exact @ih ks todo (rest :: inner) h
        all_goals nofun
    | ends =>
      cases inner with
      | nil =>
        obtain ⟨rfl, -⟩ := next_ends hu
        rfl
      | cons round inner =>
        obtain ⟨-, rfl⟩ := next_ends hu
        rw [List.length_cons, roundOf?]
        exact ih h

end Roster

/-- Beats that can be played leave no round open but have each call all of its own. -/
theorem callsAll_of_play {ks ks' : List ℕ} {events : List Event}
    (h : Roster.play? ⟨ks, []⟩ (beatsOf events) = some ⟨ks', []⟩) : CallsAll ks events := by
  rintro before e after rfl he
  rw [beatsOf_append, Roster.play_append] at h
  obtain ⟨r, hr, h⟩ := Option.bind_eq_some_iff.mp h
  have hafter : beatsOf (e :: after) = .begins :: beatsOf after := List.filterMap_cons_some he
  rw [hafter, Roster.play_cons] at h
  obtain ⟨u, hu, h⟩ := Option.bind_eq_some_iff.mp h
  cases hu
  rw [← Roster.registered_of_play hr]
  exact @Roster.roundOf_of_play _ _ r.registered r.registered [] r.rounds h (Nat.zero_le _)

/-! ### What a request tells -/

section Plays

open Act

variable {σ ρ : Type} [Holds Trace σ] {serials : σ → List ℕ} {w w' u : σ}
  {before between after : List (List ℕ)}

/-- What is told from the world `w` to `w'` takes a roster with the rounds `before` to one with the
rounds `after`. -/
def Plays (serials : σ → List ℕ) (before after : List (List ℕ)) (w w' : σ) : Prop :=
  ∃ events, (Holds.part w' : Trace).events = (Holds.part w : Trace).events ++ events ∧
    Roster.play? ⟨serials w, before⟩ (beatsOf events) = some ⟨serials w', after⟩

/-- What is told can be played whatever rounds are open, and leaves them as they are. -/
def Played (serials : σ → List ℕ) (w w' : σ) : Prop :=
  ∀ rounds, Plays serials rounds rounds w w'

theorem Plays.trans (h : Plays serials before between w u) (h' : Plays serials between after u w') :
    Plays serials before after w w' := by
  obtain ⟨events, ht, hp⟩ := h
  obtain ⟨more, ht', hp'⟩ := h'
  refine ⟨events ++ more, ?_, ?_⟩
  · rw [ht', ht, List.append_assoc]
  · rw [beatsOf_append, Roster.play_append, hp]
    exact hp'

instance : IsPreorder σ (Played serials) where
  refl _ _ := ⟨[], (List.append_nil _).symm, rfl⟩
  trans _ _ _ h h' rounds := (h rounds).trans (h' rounds)

theorem plays_of_event {e : Event} (ht : (Holds.part w' : Trace) = (Holds.part w : Trace).record e)
    (hp : Roster.play? ⟨serials w, before⟩ (beatsOf [e]) = some ⟨serials w', after⟩) :
    Plays serials before after w w' :=
  ⟨[e], by rw [ht, Trace.events_record], hp⟩

/-- Something is told that says nothing of listeners. -/
theorem played_of_event {e : Event} (ht : (Holds.part w' : Trace) = (Holds.part w : Trace).record e)
    (he : e.beat? = none) (hs : serials w' = serials w) : Played serials w w' := fun rounds => by
  refine plays_of_event ht ?_
  rw [beatsOf, List.filterMap_cons_none he, hs]
  rfl

theorem played_of_registered {k : ℕ}
    (ht : (Holds.part w' : Trace) = (Holds.part w : Trace).record (.registered k))
    (hs : serials w' = serials w ++ [k]) : Played serials w w' := fun rounds =>
  plays_of_event ht (by rw [hs]; rfl)

theorem played_of_removed {k : ℕ}
    (ht : (Holds.part w' : Trace) = (Holds.part w : Trace).record (.removed k))
    (hs : serials w' = (serials w).erase k) : Played serials w w' := fun rounds =>
  plays_of_event ht (by rw [hs]; rfl)

/-- Telling something changes no registration. -/
def TellsApart (serials : σ → List ℕ) : Prop :=
  ∀ e w, serials (Holds.update (Trace.record e) w) = serials w

theorem TellsApart.played (hs : TellsApart serials) {e : Event} (he : e.beat? = none) (w : σ) :
    Played serials w (Holds.update (Trace.record e) w) :=
  played_of_event (Holds.part_update _ _) he (hs e w)

theorem TellsApart.leads_listener (hs : TellsApart serials) {name : ρ → String}
    {ask : ρ → Act σ Answer} (hask : ∀ q w, Leads (Played serials) (ask q) w)
    (l : Listener ρ) (w : σ) : Leads (Played serials) (l.perform name ask) w :=
  Act.leads_listener (fun _ _ w => hs.played rfl w) l w hask

/-- A round of calls, each of which takes the turn of its listener. -/
theorem plays_of_announce {call : Listener ρ → Act σ Unit} {complaint : String}
    (hs : TellsApart serials)
    (hcall : ∀ l w w', (call l).Ends w w' → ∀ todo rounds,
      Plays serials ((l.serial :: todo) :: rounds) (todo :: rounds) w w')
    (ls : List (Listener ρ)) (h : (announce call complaint ls).Ends w w')
    (rounds : List (List ℕ)) :
    Plays serials (ls.map (·.serial) :: rounds) ([] :: rounds) w w' := by
  -- The list is the one taken when the round began: who comes or goes in a call changes the roster,
  -- but not the turns that are left.
  induction ls generalizing w with
  | nil =>
    cases (ends_ok_iff (pure_apply () w)).mp h
    exact refl_of (Played serials) _ _
  | cons l ls ih =>
    rcases ends_bind_cases h with ⟨_, v, hv, hrest⟩ | ⟨e, he, hv⟩
    · refine Plays.trans ?_ (ih hrest)
      rcases ends_rescue_cases (ends_of_ok hv) with ⟨_, hl⟩ | ⟨e, u, he, hu, hlogged⟩ | ⟨e, he, hc, -⟩
      · exact hcall l w v (ends_of_ok hl) _ _
      · cases (ends_ok_iff (tell_apply _ u)).mp hlogged
        exact (hcall l w u (.inr ⟨e, he, hu⟩) _ _).trans (hs.played rfl u _)
      · rw [he] at hc
        cases hc
    · have hone : announce call complaint [l] w = .error e w' := bind_of_error hv
      rw [announce_error [l] w hone] at he
      cases he

/-- All that is told calls each listener once for each registration. -/
def CalledOnce (serials : σ → List ℕ) (w w' : σ) : Prop :=
  ∃ events, (Holds.part w' : Trace).events = (Holds.part w : Trace).events ++ events ∧
    registeredAfter (serials w) (beatsOf events) = serials w' ∧ CallsAll (serials w) events

/-- A round that plays calls all that are to be called in it. -/
theorem Plays.roundOf {ks : List ℕ} {rounds : List (List ℕ)}
    (h : Plays serials (ks :: rounds) rounds w w') : ∃ events,
      (Holds.part w' : Trace).events = (Holds.part w : Trace).events ++ events ∧
        roundOf? 0 (beatsOf events) = some ks := by
  obtain ⟨events, ht, hp⟩ := h
  exact ⟨events, ht, @Roster.roundOf_of_play _ _ _ ks [] rounds hp (Nat.le_refl _)⟩

theorem Played.calledOnce (h : Played serials w w') : CalledOnce serials w w' := by
  obtain ⟨events, ht, hp⟩ := h []
  exact ⟨events, ht, (Roster.registered_of_play hp).symm, callsAll_of_play hp⟩

end Plays

/-- What is left of the registrations when a listener loses the first of its own. -/
theorem serials_remove {ρ : Type} (k : ℕ) (ls : List (Listener ρ)) :
    (Listener.remove k ls).map (·.serial) = (ls.map (·.serial)).erase k := by
  rw [Listener.remove, List.erase_eq_eraseP, List.eraseP_map]
  refine congrArg (List.map _) (congrArg (List.eraseP · ls) (funext fun l => ?_))
  exact decide_eq_decide.mpr eq_comm

theorem remove_of_notMem {ρ : Type} {k : ℕ} {ls : List (Listener ρ)}
    (h : k ∉ ls.map (·.serial)) : Listener.remove k ls = ls :=
  List.eraseP_of_forall_not fun l hl hk => h (List.mem_map.mpr ⟨l, hl, of_decide_eq_true hk⟩)

/-! ### Signals -/

namespace ChangeSignal
namespace Alone

open Act

variable {ask : Request → Act Alone Answer} {w w' : Alone}

/-- The serial numbers of the registered listeners, one for each registration. -/
def serials (w : Alone) : List ℕ :=
  w.signal.listeners.map (·.serial)

theorem tellsApart : TellsApart serials := fun _ _ => rfl

theorem plays_of_call (hask : ∀ q w, Leads (Played serials) (ask q) w) (l : Listener Request)
    (w w' : Alone) (h : (call ask l).Ends w w') (todo : List ℕ) (rounds : List (List ℕ)) :
    Plays serials ((l.serial :: todo) :: rounds) (todo :: rounds) w w' := by
  have hinvoked : Plays serials ((l.serial :: todo) :: rounds) (todo :: rounds) w
      { w with trace := w.trace.record (.invoked l.serial) } :=
    plays_of_event (e := .invoked l.serial) rfl (Roster.play_calls _ _ _ _)
  have hchange : Played serials { w with trace := w.trace.record (.invoked l.serial) }
      { w with trace := (w.trace.record (.invoked l.serial)).record (.change l.name none w.now) } :=
    played_of_event (e := .change l.name none w.now) rfl rfl rfl
  exact hinvoked.trans ((hchange _).trans (tellsApart.leads_listener hask l _ w' h _))

/-- A delivery is a round of those that are registered when it begins. -/
theorem plays_of_deliver (hask : ∀ q w, Leads (Played serials) (ask q) w)
    (h : (deliver ask w.signal.listeners).Ends w w') (rounds : List (List ℕ)) :
    Plays serials (w.serials :: rounds) rounds w w' := by
  rcases ends_bind_cases h with ⟨_, v, hv, hend⟩ | ⟨e, he, hv⟩
  · have hcalls := plays_of_announce tellsApart (plays_of_call hask) w.signal.listeners
      (ends_of_ok hv) rounds
    rw [ends_get_bind] at hend
    cases (ends_ok_iff (tell_apply _ v)).mp hend
    exact hcalls.trans (plays_of_event (e := .delivered v.signal.dirty) rfl rfl)
  · rw [announce_error _ _ hv] at he
    cases he

/-- A signal that is fired is a round. -/
theorem played_of_fireNow (hask : ∀ q w, Leads (Played serials) (ask q) w)
    (h : (fireNow ask).Ends w w') : Played serials w w' := fun rounds =>
  Plays.trans (u := w.begun) (plays_of_event (e := .signal []) rfl rfl)
    (plays_of_deliver (w := w.begun) hask h rounds)

theorem serials_registered (l : Listener Request) :
    (w.signal.listeners ++ [l]).map (·.serial) = w.serials ++ [l.serial] :=
  List.map_append

theorem leads_answer_played (hask : ∀ q w, Leads (Played serials) (ask q) w) (q : Request)
    (w : Alone) : Leads (Played serials) (answer ask q) w := by
  have haside {w w' : Alone} {e : Event} (he : e.beat? = none) (hs : w'.serials = w.serials)
      (ht : w'.trace = w.trace.record e) : Played serials w w' := played_of_event ht he hs
  cases q with
  | subscribe name script =>
    exact leads_of_ok rfl
      (played_of_registered rfl (serials_registered ⟨w.known.length, name, script, none⟩))
  | resubscribe name =>
    unfold answer
    rw [leads_get_bind]
    cases Listener.latest? w.known name with
    | some l => exact leads_of_ok rfl (played_of_registered rfl (serials_registered l))
    | none => exact leads_of_ok rfl (refl_of _ w)
  | unsubscribe name =>
    unfold answer
    rw [leads_get_bind]
    cases Listener.latest? w.known name with
    | some l => exact leads_of_ok rfl (played_of_removed rfl (serials_remove l.serial _))
    | none => exact leads_of_ok rfl (refl_of _ w)
  | unsubscribeUnknown => exact Leads.pure _ w
  | mark =>
    refine leads_of_ok (v := w.markedNow) rfl (haside (e := .marked w.now) rfl ?_ rfl)
    unfold Alone.markedNow ChangeSignal.mark serials
    split <;> rfl
  | reset => exact leads_of_ok (v := w.unmarked) rfl (haside (e := .unmarked) rfl rfl rfl)
  | poll =>
    have hpolled : Played serials w w.polled :=
      haside (e := .polled w.now (w.signal.isDue w.now)) rfl rfl rfl
    cases hd : w.signal.isDue w.now with
    | true =>
      refine Leads.after (y := fireNow ask >>= fun _ => pure (.flag true)) (v := w.polled) hpolled ?_ ?_
      · exact Leads.bind (fun w' h => played_of_fireNow hask h) fun _ v _ _ => Leads.pure _ v
      · rw [poll_apply, if_pos hd]
    | false =>
      refine leads_of_ok (a := .flag false) (v := w.polled) ?_ hpolled
      rw [poll_apply, if_neg (Bool.eq_false_iff.mp hd)]
  | fire => exact Leads.bind (fun w' h => played_of_fireNow hask h) fun _ v _ _ => Leads.pure _ v
  | advance seconds =>
    have hx : Leads (Played serials) (inSeconds seconds) w := by
      unfold inSeconds
      cases seconds.toFloat? with
      | some x => exact Leads.pure x w
      | none => exact Leads.throw .overflow w
    refine Leads.bind hx fun x v _ _ => leads_of_ok (v := { v with now := v.now + x }) rfl ?_
    exact refl_of (Played serials) v

theorem played_of_run (h : Run w w') : Played serials w w' :=
  h.rel (fun _ hask => leads_answer_played hask) fun w _ => refl_of (Played serials) w

/-- Whoever fires a signal has those called that are registered then. -/
theorem round_of_fire {depth : ℕ} (h : (perform depth .fire).Ends w w') :
    ∃ events, w'.trace.events = w.trace.events ++ .signal [] :: events ∧
      roundOf? 0 (beatsOf events) = some w.serials := by
  cases depth with
  | zero =>
    rcases h with ⟨_, h⟩ | ⟨e, he, h⟩
    · cases h
    · cases h
      cases he
  | succ depth =>
    have hend : (fireNow (perform depth)).Ends w w' := ends_of_bind_pure h
    have hask : ∀ q w, Leads (Played serials) (perform depth q) w :=
      leads_perform (fun _ hask => leads_answer_played hask) depth
    obtain ⟨events, ht, hround⟩ := (plays_of_deliver (w := w.begun) hask hend []).roundOf
    refine ⟨events, ?_, hround⟩
    have hbegun : w.begun.trace.events = w.trace.events ++ [.signal []] := Trace.events_record _ _
    rw [show w'.trace.events = w.begun.trace.events ++ events from ht, hbegun, List.append_assoc]
    rfl

/-- A listener loses its first registration, and nobody else loses any. One that has none, or that is
not there at all, changes nothing. -/
theorem unsubscribe_eq (depth : ℕ) (name : String) (w : Alone) :
    ∃ w', perform (depth + 1) (.unsubscribe name) w = .ok .nothing w' ∧
      (∀ l, Listener.latest? w.known name = some l → w'.serials = w.serials.erase l.serial) ∧
      ((∀ l, Listener.latest? w.known name = some l → l.serial ∉ w.serials) →
        w'.signal = w.signal) := by
  show ∃ w', ((get : Act Alone Alone) >>= _) w = _ ∧ _
  rw [get_bind_apply]
  cases Listener.latest? w.known name with
  | some l =>
    refine ⟨_, rfl, fun l' hl => ?_, fun h => ?_⟩
    · cases hl
      exact serials_remove l.serial _
    · exact congrArg (fun ls => { w.signal with listeners := ls }) (remove_of_notMem (h l rfl))
  | none => exact ⟨w, rfl, nofun, fun _ => rfl⟩

end Alone
end ChangeSignal

/-! ### Lifecycles -/

namespace Lifecycle
namespace Alone

open Act

variable {ask : Request → Act Alone Answer} {w w' : Alone}

theorem tellsApart : TellsApart serials := fun _ _ => rfl

theorem plays_of_call (hask : ∀ q w, Leads (Played serials) (ask q) w) (old new : Phase)
    (l : Listener Request) (w w' : Alone) (h : (call ask l old new).Ends w w') (todo : List ℕ)
    (rounds : List (List ℕ)) : Plays serials ((l.serial :: todo) :: rounds) (todo :: rounds) w w' := by
  have hcalled : Plays serials ((l.serial :: todo) :: rounds) (todo :: rounds) w
      { w with trace := w.trace.record (.called l.serial old new) } :=
    plays_of_event (e := .called l.serial old new) rfl (Roster.play_calls _ _ _ _)
  have hstate : Played serials { w with trace := w.trace.record (.called l.serial old new) }
      { w with trace := (w.trace.record (.called l.serial old new)).record (.state l.name old new) } :=
    played_of_event (e := .state l.name old new) rfl rfl rfl
  have hscript : Leads (Played serials) ((l.perform Request.name ask).ensuring
      (Holds.update (Trace.record (.returned l.serial)))) _ :=
    Leads.ensuring (tellsApart.leads_listener hask l
      { w with trace := (w.trace.record (.called l.serial old new)).record (.state l.name old new) })
      fun v => played_of_event (e := .returned l.serial) rfl rfl rfl
  exact hcalled.trans ((hstate _).trans (hscript w' h _))

/-- A step is a round of those that are registered when it is made; one that is refused is none. -/
theorem plays_of_transition (hask : ∀ q w, Leads (Played serials) (ask q) w) {target : Phase}
    (h : (answer ask (.transition target)).Ends w w') (rounds : List (List ℕ)) :
    if w.life.phase.canBecome target then
      Plays serials (w.serials :: rounds) rounds (w.stepped target) w'
    else Plays serials rounds rounds w w' := by
  cases hc : w.life.phase.canBecome target with
  | true =>
    rw [if_pos rfl]
    rcases ends_bind_cases h with ⟨_, v, hv, hend⟩ | ⟨e, he, hv⟩
    · rw [transition_of hc] at hv
      have hcalls := plays_of_announce tellsApart
        (plays_of_call hask w.life.phase target) w.life.listeners (ends_of_ok hv) rounds
      rw [ends_tell_bind] at hend
      cases (ends_ok_iff (pure_apply Answer.nothing _)).mp hend
      exact hcalls.trans (plays_of_event (e := .announced) rfl rfl)
    · rw [transition_of hc] at hv
      rw [announce_error _ _ hv] at he
      cases he
  | false =>
    rw [if_neg Bool.false_ne_true]
    have hrefused : answer ask (.transition target) w = .error (.badTransition w.life.phase target)
        { w with trace := w.trace.record (.refused w.life.phase target) } :=
      bind_of_error (transition_of_not hc)
    have hend : w' = { w with trace := w.trace.record (.refused w.life.phase target) } :=
      lands_of_error (Q := (· = _)) hrefused rfl w' h
    have hplayed : Played serials w
        { w with trace := w.trace.record (.refused w.life.phase target) } :=
      played_of_event (e := .refused w.life.phase target) rfl rfl rfl
    cases hend
    exact hplayed rounds

theorem leads_answer_played (hask : ∀ q w, Leads (Played serials) (ask q) w) (q : Request)
    (w : Alone) : Leads (Played serials) (answer ask q) w := by
  cases q with
  | transition target =>
    intro w' h rounds
    have hplays := plays_of_transition hask h rounds
    split_ifs at hplays
    · have hmoved : Plays serials rounds (w.serials :: rounds) w (w.stepped target) :=
        plays_of_event (e := .moved w.life.phase target) rfl rfl
      exact hmoved.trans hplays
    · exact hplays
  | canBecome target => exact leads_of_ok rfl (refl_of (Played serials) w)
  | describe => exact leads_of_ok rfl (refl_of (Played serials) w)
  | represent => exact leads_of_ok rfl (refl_of (Played serials) w)
  | listen name script => exact leads_of_ok rfl (played_of_registered rfl List.map_append)
  | remove name =>
    unfold answer
    rw [leads_get_bind]
    cases Listener.latest? w.known name with
    | some l => exact leads_of_ok rfl (played_of_removed rfl (serials_remove l.serial _))
    | none => exact leads_of_ok rfl (refl_of (Played serials) w)

theorem played_of_run (h : Run w w') : Played serials w w' :=
  h.rel fun _ hask => leads_answer_played hask

/-- Whoever makes a step has those told that are registered then. -/
theorem round_of_transition {depth : ℕ} {target : Phase}
    (hc : w.life.phase.canBecome target = true)
    (h : (perform depth (.transition target)).Ends w w') :
    ∃ events, w'.trace.events = w.trace.events ++ .moved w.life.phase target :: events ∧
      roundOf? 0 (beatsOf events) = some w.serials := by
  cases depth with
  | zero =>
    rcases h with ⟨_, h⟩ | ⟨e, he, h⟩
    · cases h
    · cases h
      cases he
  | succ depth =>
    have hask : ∀ q w, Leads (Played serials) (perform depth q) w :=
      leads_perform (fun _ hask => leads_answer_played hask) depth
    have hplays := plays_of_transition hask h []
    rw [if_pos hc] at hplays
    obtain ⟨events, ht, hround⟩ := hplays.roundOf
    refine ⟨events, ?_, hround⟩
    rw [show w'.trace.events = (w.stepped target).trace.events ++ events from ht, events_stepped,
      List.append_assoc]
    rfl

/-- A listener loses its first registration, and nobody else loses any. One that has none, or that is
not there at all, changes nothing. -/
theorem remove_eq (depth : ℕ) (name : String) (w : Alone) :
    ∃ w', perform (depth + 1) (.remove name) w = .ok .nothing w' ∧
      (∀ l, Listener.latest? w.known name = some l → w'.serials = w.serials.erase l.serial) ∧
      ((∀ l, Listener.latest? w.known name = some l → l.serial ∉ w.serials) →
        w'.life = w.life) := by
  show ∃ w', ((get : Act Alone Alone) >>= _) w = _ ∧ _
  rw [get_bind_apply]
  cases Listener.latest? w.known name with
  | some l =>
    refine ⟨_, rfl, fun l' hl => ?_, fun h => ?_⟩
    · cases hl
      exact serials_remove l.serial _
    · exact congrArg (fun ls => { w.life with listeners := ls }) (remove_of_notMem (h l rfl))
  | none => exact ⟨w, rfl, nofun, fun _ => rfl⟩

end Alone
end Lifecycle

/-- Every delivery of a signal and every step of a lifecycle calls the listeners that are registered
when it begins, once for each registration and in order, whatever they do in the middle of it and
however they end: so in whatever is asked, and so for a signal that is fired and a step that is made
from any listeners. A listener that is removed loses its first registration. Where it has none, and
where it is not there at all, nothing changes. -/
theorem each_registration_is_called_once :
    (∀ w w', ChangeSignal.Alone.Run w w' → CalledOnce ChangeSignal.Alone.serials w w') ∧
    (∀ depth w w', (ChangeSignal.Alone.perform depth .fire).Ends w w' →
      ∃ events, w'.trace.events = w.trace.events ++ .signal [] :: events ∧
        roundOf? 0 (beatsOf events) = some w.serials) ∧
    (∀ depth name w, ∃ w',
      ChangeSignal.Alone.perform (depth + 1) (.unsubscribe name) w = .ok .nothing w' ∧
      (∀ l, Listener.latest? w.known name = some l → w'.serials = w.serials.erase l.serial) ∧
      ((∀ l, Listener.latest? w.known name = some l → l.serial ∉ w.serials) →
        w'.signal = w.signal)) ∧
    (∀ depth w, ChangeSignal.Alone.perform (depth + 1) .unsubscribeUnknown w = .ok .nothing w) ∧
    (∀ w w', Lifecycle.Alone.Run w w' → CalledOnce Lifecycle.Alone.serials w w') ∧
    (∀ depth target w w', w.life.phase.canBecome target = true →
      (Lifecycle.Alone.perform depth (.transition target)).Ends w w' →
      ∃ events, w'.trace.events = w.trace.events ++ .moved w.life.phase target :: events ∧
        roundOf? 0 (beatsOf events) = some w.serials) ∧
    (∀ depth name w, ∃ w',
      Lifecycle.Alone.perform (depth + 1) (.remove name) w = .ok .nothing w' ∧
      (∀ l, Listener.latest? w.known name = some l → w'.serials = w.serials.erase l.serial) ∧
      ((∀ l, Listener.latest? w.known name = some l → l.serial ∉ w.serials) →
        w'.life = w.life)) := by
  refine ⟨?_, ?_, ?_, ?_, ?_, ?_, ?_⟩
  · exact fun w w' h => (ChangeSignal.Alone.played_of_run h).calledOnce
  · exact fun depth w w' h => ChangeSignal.Alone.round_of_fire h
  · exact ChangeSignal.Alone.unsubscribe_eq
  · exact fun depth w => rfl
  · exact fun w w' h => (Lifecycle.Alone.played_of_run h).calledOnce
  · exact fun depth target w w' hc h => Lifecycle.Alone.round_of_transition hc h
  · exact Lifecycle.Alone.remove_eq

/-- A listener that leaves, lets another one come and fires again, and one behind it that fails and
is registered twice. -/
def unruly : ChangeSignal.Alone :=
  (ChangeSignal.Alone.start (.int 1)).asked
    [.subscribe "a" fun _ =>
        [.ask (.unsubscribe "a"), .ask (.subscribe "c" (fun _ => [])), .ask .fire],
      .subscribe "b" (fun _ => [.fail "broken"]), .resubscribe "b"]

/-- A lifecycle whose one listener leaves and goes on, and is registered twice. -/
def goingOn : Lifecycle.Alone :=
  let l : Listener Lifecycle.Request :=
    ⟨0, "a", fun _ => [.ask (.remove "a"), .ask (.transition .connected)], none⟩
  { Lifecycle.Alone.start .disconnected with life := ⟨.disconnected, [l, l]⟩, known := [l] }

/-- The inner round of the unruly listener finds the newcomer and not the listener itself; the outer
one goes on as it began. Who goes on twice is still called twice for the first step. -/
theorem unruly_rounds :
    let t := unruly.asked [.fire]
    let u := goingOn.asked [.transition .connecting]
    (∃ events, t.trace.events = unruly.trace.events ++ .signal [] :: events ∧
      roundOf? 0 (beatsOf events) = some [0, 1, 1]) ∧
    t.serials = [1, 1, 2] ∧
    CalledOnce ChangeSignal.Alone.serials unruly t ∧
    (∃ events, u.trace.events = goingOn.trace.events ++ .moved .disconnected .connecting :: events ∧
      roundOf? 0 (beatsOf events) = some [0, 0]) ∧
    CalledOnce Lifecycle.Alone.serials goingOn u := by
  intro t u
  obtain ⟨hrun, hfire, -, -, hrun', hstep, -⟩ := each_registration_is_called_once
  have ht : (ChangeSignal.Alone.perform 2 .fire).Ends unruly t :=
    Act.ends_leaves (by decide +kernel)
  have hu : (Lifecycle.Alone.perform 3 (.transition .connecting)).Ends goingOn u :=
    Act.ends_leaves (by decide +kernel)
  refine ⟨hfire 2 unruly t ht, ?_, ?_, hstep 3 .connecting goingOn u rfl hu, ?_⟩
  · decide +kernel
  · exact hrun unruly t (ChangeSignal.Alone.run_asked (by decide +kernel))
  · exact hrun' goingOn u (Lifecycle.Alone.run_asked (by decide +kernel))

end DiagnosticWatch
