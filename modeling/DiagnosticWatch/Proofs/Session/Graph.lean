/-
# The steps of the link

The link asks for a step at four places: when it sets out to connect, when a dial
tells it of a connection or of a failure, and when it leaves its connection. All
but the first look at the phase before, so that what they ask for is an edge of
the graph. The link sets out when it has disconnected, and is refused only if a
listener that was told of that has made it connect in the meantime. So every run
of a session is a path along the edges, and one whose listeners make nobody
connect is refused nothing, whatever else comes in between.

Key definitions: `Request.Undemanding`, `Session.Granted`.
Key theorems: `Session.path_of_run`, `Session.granted_of_moves`,
`Session.phase_walks_the_graph`.
-/
import DiagnosticWatch.Proofs.Graph
import DiagnosticWatch.Proofs.Session.Cadence

namespace DiagnosticWatch

/-- The request may be anything, but whom it registers makes nobody connect or tick the pacer. -/
def Request.Undemanding (q : Request) : Prop :=
  ∀ trace, Script.Within Request.Onlooking (q.script trace)

theorem Request.Within.of_onlooking {q : Request} (h : q.Within Request.Onlooking) :
    q.Within Request.Undemanding := by
  induction h with
  | intro _ script ih => exact ⟨script, ih⟩

theorem Request.Undemanding.within {q : Request} (h : q.Undemanding) :
    q.Within Request.Undemanding :=
  ⟨h, fun trace q hq => (h trace q hq).of_onlooking⟩

theorem Request.Within.undemanding {q : Request} (h : q.Within Request.Undemanding) :
    q.Undemanding := by
  obtain ⟨self, -⟩ := h
  exact self

namespace Session

open Act

variable {A : Request → Prop} {s t u : Session} {ask : Request → Act Session Answer}

/-! ### Paths -/

theorem stepsOf_events (s : Session) : stepsOf s.trace.events = s.moves.reverse := by
  have hstep : Event.step? = Event.move? := by
    funext e
    cases e <;> rfl
  rw [stepsOf, Trace.events, List.filterMap_reverse, hstep, moves]

/-- The steps so far are a path from the phase at first. -/
theorem path_of_run (h : Run A s t) (hs : s.Fit A) (hm : s.moves = []) :
    Phase.Path s.phase (stepsOf t.trace.events) t.phase := by
  rw [stepsOf_events]
  let P (steps : List (Phase × Phase)) (p : Phase) : Prop := Phase.Path s.phase steps.reverse p
  have hP : ∀ {steps : List (Phase × Phase)} {p q : Phase}, p.canBecome q = true → P steps p →
      P ((p, q) :: steps) q := fun {steps p q} hc hp => by
    show Phase.Path _ ((p, q) :: steps).reverse q
    rw [List.reverse_cons]
    exact hp.snoc (Phase.edge_iff.mpr hc)
  have hfirst : P s.moves s.phase := by
    rw [hm]
    exact .nil s.phase
  refine (h.keeps (P := fun u => P u.moves u.phase) ?_ ?_ ?_ hs hfirst).2
  · exact fun _ hw => hw.keeps_steps (P := P) hP
  · exact fun hu ht => ht.keeps_steps (P := P) hP hu.scripted
  · intro u v timer hu _ hg hp
    have ht := tidy_of_alarm hu.scripted hg
    rwa [ht.moves, phase, ht.link]

/-- A step along no edge is refused: nothing happens but that this is told. -/
theorem moveTo_of_not_edge (ask : Request → Act Session Answer) {target : Phase}
    (h : ¬ s.phase.Edge target) : moveTo ask target s =
      .error (.badTransition s.phase target) (s.telling (.refused s.phase target)) :=
  moveTo_of_not (Phase.canBecome_of_not_edge h)

/-! ### Refusals -/

/-- From `s` to `t` no step is refused. -/
def Granted (s t : Session) : Prop :=
  t.refusals = s.refusals

instance : IsPreorder Session Granted where
  refl _ := rfl
  trans _ _ _ h h' := Eq.trans h' h

theorem overlooks_granted : Overlooks A Granted :=
  overlooks_of_apart Apart.refusals

theorem lax_granted : Lax Granted :=
  fun _ _ => Casual.refusals

theorem under_granted (hs : s.Attended A → t.Attended A) (h : t.refusals = s.refusals) :
    Under A Granted s t :=
  fun ha => ⟨hs ha, h⟩

theorem granted_of_arms {x : Float} (h : Arms x s t) : Granted s t := by
  unfold Granted refusals
  rw [h.trace]
  rfl

section Asks

variable (hd : ∀ q, Request.Within Request.Onlooking q → Keeps Request.Onlooking KeepsDown (ask q))

include hd in
/-- The link ends disconnected when it has left, if no listener makes anybody connect. -/
theorem disconnected_of_leave (hs : s.Attended Request.Onlooking) (h : (leave ask).Ends s t) :
    t.phase = .disconnected := by
  unfold Ends at h
  rw [leave_apply] at h
  exact (leads_left overlooks_keepsDown hd s t h hs.left).2 (phase_left s)

include hd in
theorem disconnected_of_drop (hs : s.Attended Request.Onlooking)
    (h : (disconnect ask false).Ends s t) : t.phase = .disconnected := by
  obtain ⟨v, hv, -⟩ := callOff_keeps s
  rw [disconnect_eq] at h
  unfold Ends at h
  rw [bind_of_ok hv] at h
  exact disconnected_of_leave hd ((aside_callOff hv).attended hs) h

variable (hg : ∀ q, Request.Within Request.Onlooking q → Keeps Request.Onlooking Granted (ask q))
include hg

include hd in
/-- Who connects is not refused. -/
theorem granted_connect (host : String) (port : Number) :
    Keeps Request.Onlooking Granted (connect ask host port) := by
  refine keeps_iff.mpr fun w s => .of_holds fun hs => ?_
  -- Whether the link had to disconnect first or not, it sets out disconnected.
  have hout : ∀ t : Session, t.phase = .disconnected →
      Preserves (KeptFrom Request.Onlooking Granted w)
        (Ordinarily (KeptFrom Request.Onlooking Granted w)) (setOut ask host port) t := fun t hp =>
    preserves_setOut_of_down (outlasts_kept overlooks_granted hg w) hp
      (fun ht => ht.under (under_granted (fun ha => { ha with }) rfl))
      fun ht => ht.under (under_granted (fun ha => { ha with }) rfl)
  refine preserves_connect_of (fun hs _ => hs) (hout s) fun _ => ?_
  refine .bind_ok (preserves_disconnect (outlasts_kept overlooks_granted hg w) false s)
    fun _ v hv => ?_
  exact hout v (disconnected_of_drop hd hs.attended (ends_of_ok hv))

end Asks

/-- Whatever is asked, and however deep listeners nest requests. -/
theorem granted_perform (depth : ℕ) (q : Request) (h : q.Undemanding) :
    Keeps Request.Onlooking Granted (perform depth q) := by
  induction depth generalizing q with
  | zero => exact Keeps.throw _
  | succ depth ih =>
    have hask : ∀ q, Request.Within Request.Onlooking q →
        Keeps Request.Onlooking Granted (perform depth q) := fun q hq => ih q hq.script_within
    have dial := granted_connect (keepsDown_perform depth) hask
    refine keeps_answer overlooks_granted hask h dial (fun hpeer s => ?_)
      (keeps_paceTick lax_granted overlooks_granted hask dial)
      (keeps_startTicker lax_granted) (keeps_cancelTicker lax_granted)
    exact leads_ofPeer (R := Under Request.Onlooking Granted)
      (fun v i f => under_granted (fun hs => { hs with }) rfl)
      (fun v level text => under_granted (fun hs => { hs with }) rfl) hpeer s

/-- No move is refused a step, if no listener makes anybody connect. -/
theorem granted_of_moves {move : Move} (hs : s.Fit Request.Undemanding)
    (h : Moves Request.Undemanding move s t) : Under Request.Onlooking Granted s t := by
  have hask (depth : ℕ) : ∀ q, Request.Within Request.Onlooking q →
      Keeps Request.Onlooking Granted (perform depth q) := fun q hq =>
    granted_perform depth q hq.script_within
  refine under_of_moves Apart.refusals lax_granted hask
    (fun depth q hq => granted_perform depth q hq.undemanding) (fun depth => ?_) (fun _ _ => rfl) hs h
  have dial := granted_connect (keepsDown_perform depth) (hask depth)
  exact keeps_runTicker lax_granted overlooks_granted (hask depth) dial granted_of_arms

theorem granted_of_run (hs : s.Fit Request.Undemanding) (h : Run Request.Undemanding s t) :
    Under Request.Onlooking Granted s t := by
  induction h with
  | refl => exact refl_of (Under Request.Onlooking Granted) s
  | tail hrun hm ih =>
    obtain ⟨move, hm⟩ := hm
    exact trans_of (Under Request.Onlooking Granted) ih (granted_of_moves (hs.run hrun) hm)

theorem not_refused_of_refusals (h : s.refusals = []) (old new : Phase) :
    .refused old new ∉ s.trace.events := by
  intro hmem
  have hnone := List.filterMap_eq_nil_iff.mp h _ (List.mem_reverse.mp hmem)
  cases hnone

/-- The phases that a lifecycle and the link of a session take are a path along the edges: whatever
is asked of a lifecycle by anybody and by its listeners, and in every run of a session. Whoever asks
for a step along no edge is told so, and neither the phase nor the listeners change, nor is anybody
called. In a session this does not come up, unless a listener makes somebody connect. -/
theorem phase_walks_the_graph :
    (∀ w w', Lifecycle.Alone.Run w w' → ∃ events, w'.trace.events = w.trace.events ++ events ∧
      Phase.Path w.life.phase (stepsOf events) w'.life.phase) ∧
    (∀ depth target (w : Lifecycle.Alone), ¬ w.life.phase.Edge target →
      Lifecycle.Alone.perform (depth + 1) (.transition target) w =
        .error (.badTransition w.life.phase target)
          { w with trace := w.trace.record (.refused w.life.phase target) }) ∧
    (∀ link pacer store outcomes probe s,
      Run (fun _ => True) (start link pacer store outcomes probe) s →
      Phase.Path .disconnected (stepsOf s.trace.events) s.phase) ∧
    (∀ ask target (s : Session), ¬ s.phase.Edge target →
      moveTo ask target s =
        .error (.badTransition s.phase target) (s.telling (.refused s.phase target))) ∧
    (∀ link pacer store outcomes probe s,
      (∀ o ∈ outcomes, Script.Within Request.Undemanding o.race) →
      Run Request.Undemanding (start link pacer store outcomes probe) s →
      ∀ old new, .refused old new ∉ s.trace.events) := by
  refine ⟨?_, ?_, ?_, ?_, ?_⟩
  · exact fun w w' h => Lifecycle.Alone.roams_of_run h
  · exact fun depth target w h => Lifecycle.Alone.perform_of_not_edge depth h
  · intro link pacer store outcomes probe s h
    exact path_of_run h (fit_start link pacer store probe fun o _ =>
      script_within_of_all (fun _ => trivial) o.race) rfl
  · exact fun ask target s h => moveTo_of_not_edge ask h
  · intro link pacer store outcomes probe s hrace h
    have hs := fit_start link pacer store probe hrace
    have hnone : s.refusals = [] := (granted_of_run hs h ⟨nofun, nofun⟩).2
    exact not_refused_of_refusals hnone

/-- A lifecycle whose listener goes on, asks for more than there is, and fails. -/
def overeager : Lifecycle.Alone :=
  (Lifecycle.Alone.start .disconnected).asked
    [.listen "a" fun _ =>
      [.ask (.transition .connected), .ask (.transition .connecting), .fail "broken"]]

/-- The link connects anew while the first attempt has just ended, and again when it is
connected. -/
def reconnecting : List Step :=
  [.ask (.onState "a" (fun _ => [.ask (.disconnect false)]) (some .connected)),
    .ask (.connect "127.0.0.1" (.int 27099)), .pass (.int 0),
    .ask (.connect "127.0.0.1" (.int 27099)), .ask (.disconnect true)]

/-- What is refused to the listener leaves no trace in the phases, and what the link asks for is not
refused. -/
theorem overeager_and_reconnecting_walk :
    let w := overeager.asked [.transition .connecting]
    let race := [.ask (.connect "127.0.0.1" (.int 27099))]
    let begun := start {} {} .empty [⟨.opens, .int 0, .none, [], false, race⟩,
      ⟨.opens, .int 0, .none, [], false, []⟩] none
    let s := begun.after reconnecting
    Phase.Path .disconnected [(.disconnected, .connecting), (.connecting, .connected)]
      w.life.phase ∧
    Lifecycle.Alone.perform 1 (.transition .connecting) w =
      .error (.badTransition .connected .connecting)
        { w with trace := w.trace.record (.refused .connected .connecting) } ∧
    Phase.Path .disconnected (stepsOf s.trace.events) s.phase ∧
    (stepsOf s.trace.events).length = 7 ∧
    ∀ old new, .refused old new ∉ s.trace.events := by
  intro w race begun s
  obtain ⟨hwalk, hrefused, hpath, -, hgranted⟩ := phase_walks_the_graph
  have hw : Lifecycle.Alone.Run overeager w := Lifecycle.Alone.run_asked (by decide +kernel)
  have hrun (A : Request → Prop) (h : ∀ step ∈ reconnecting, StepWithin A step) : Run A begun s :=
    run_of_steps reconnecting h (by decide +kernel)
  have hasked : ∀ step ∈ reconnecting, StepWithin Request.Undemanding step := by
    have hnone {q : Request} (h : q.script = fun _ => []) : q.Within Request.Undemanding :=
      Request.Undemanding.within fun _ => by rw [h]; exact Script.within_nil _
    have hfirst : Request.Undemanding
        (.onState "a" (fun _ => [.ask (.disconnect false)]) (some .connected)) := fun _ q hq => by
      cases List.mem_singleton.mp hq
      exact Request.within_plain trivial rfl
    simp only [reconnecting, List.forall_mem_cons]
    exact ⟨hfirst.within, hnone rfl, trivial, hnone rfl, hnone rfl, nofun⟩
  have hrace : Script.Within Request.Undemanding race := fun q hq => by
    cases List.mem_singleton.mp hq
    exact Request.within_plain (fun _ => Script.within_nil _) rfl
  refine ⟨?_, hrefused 0 .connecting w (by decide +kernel), ?_, by decide +kernel, ?_⟩
  · obtain ⟨events, ht, hp⟩ := hwalk overeager w hw
    have hsteps : stepsOf events = [(.disconnected, .connecting), (.connecting, .connected)] := by
      have hall : stepsOf w.trace.events = stepsOf overeager.trace.events ++ stepsOf events := by
        rw [ht, stepsOf_append]
      exact hall.symm
    rw [← hsteps]
    exact hp
  · exact hpath {} {} .empty _ none s
      (hrun _ fun step _ => stepWithin_of_all (fun _ => trivial) step)
  · refine hgranted {} {} .empty _ none s (fun o ho => ?_) (hrun _ hasked)
    simp only [List.mem_cons, List.not_mem_nil, or_false] at ho
    rcases ho with rfl | rfl
    · exact hrace
    · exact Script.within_nil _

end Session
end DiagnosticWatch
