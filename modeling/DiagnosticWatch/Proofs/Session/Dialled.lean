/-
# The host that is dialled

The pacer makes the link connect to the host of the settings, letter by letter
as it was written there. So if nobody else makes it connect elsewhere, every
attempt of a run is made to that very text (`Session.Heads`). The check of the
settings, however, looked at the text without the brackets around it: of what
is dialled, exactly the hosts that are written with brackets do not stand for
this machine as they are.

Key definitions: `Request.Heads`, `Session.Heads`, `Session.KeepsTo`.
Key theorems: `Session.keepsTo_perform`, `Session.Heads.unpaced`,
`Session.attempts_as_written`.
-/
import DiagnosticWatch.Proofs.Session.Setup
import DiagnosticWatch.Proofs.Settings.Allowed
import DiagnosticWatch.Proofs.Settings.Brackets

namespace DiagnosticWatch

/-- Who connects by this request connects to `host`. -/
def Request.Heads (host : String) : Request → Prop
  | .connect other _ | .connectUnlooped other _ => other = host
  | _ => True

namespace Session

open Act

variable {host : String} {s t u : Session} {α : Type} {d : Nat} {dial : Dial}
  {ask : Request → Act Session Answer}

/-- The pacer, every dial and every attempt so far head for `host`, and so does what the listeners
ask for. -/
structure Heads (host : String) (s : Session) : Prop where
  settings : s.pacer.settings.host = host
  dials : ∀ d dial, s.dial? d = some dial → dial.host = host
  attempted : ∀ other ∈ s.attempted, other = host
  attended : s.Attended (Request.Heads host)

/-- What changes neither the hosts nor the listeners. -/
theorem Heads.congr (hs : s.Heads host) (settings : t.pacer.settings = s.pacer.settings)
    (life : t.link.life.listeners = s.link.life.listeners)
    (signal : t.link.signal.listeners = s.link.signal.listeners)
    (hosts : ∀ d, (t.dial? d).map Dial.host = (s.dial? d).map Dial.host)
    (attempted : t.attempted = s.attempted) : t.Heads host where
  settings := by rw [settings, hs.settings]
  dials d dial hd := by
    have h := hosts d
    rw [hd, Option.map_some] at h
    obtain ⟨old, ho, hh⟩ := Option.map_eq_some_iff.mp h.symm
    rw [← hh, hs.dials d old ho]
  attempted := by
    rw [attempted]
    exact hs.attempted
  attended := hs.attended.congr life signal

theorem Heads.asSetUp (hs : s.Heads host) (h : AsSetUp s t) : t.Heads host :=
  hs.congr h.settings h.life h.signal h.hosts h.attempted

theorem bears_heads (host : String) : Bears (Request.Heads host) (Heads host) fun _ => True where
  asSetUp h hs := hs.asSetUp h
  attended hs := hs.attended
  ordinary _ := trivial

/-- Nothing but the pacer changes, and that keeps its settings. -/
theorem Heads.pacer (hs : s.Heads host) {pacer : Pacer} (h : pacer.settings = s.pacer.settings) :
    Heads host { s with pacer } :=
  hs.congr h rfl rfl (fun _ => rfl) rfl

theorem Heads.dialling (hs : s.Heads host) (port : Number) : (s.dialling host port).Heads host where
  settings := hs.settings
  dials d dial hd := by
    rw [dial?_dialling] at hd
    split at hd
    · cases hd
      rfl
    · exact hs.dials d dial hd
  attempted := hs.attempted
  attended := { hs.attended with }

/-- The act keeps to the host. -/
def KeepsTo (host : String) (act : Act Session α) : Prop :=
  ∀ s, Stays (Heads host) (fun _ => True) act s

/-- Every request within the host is answered so that it is kept to. -/
def AsksTo (host : String) (ask : Request → Act Session Answer) : Prop :=
  ∀ q, Request.Within (Request.Heads host) q → KeepsTo host (ask q)

theorem outlasts_heads (ha : AsksTo host ask) :
    Outlasts (Request.Heads host) (Heads host) (fun _ s => s.Heads host ∧ True) ask :=
  (bears_heads host).outlasts ha

theorem keepsTo_connect (ha : AsksTo host ask) (port : Number) :
    KeepsTo host (connect ask host port) :=
  stays_connect (bears_heads host) ha fun hs => hs.dialling port

/-! ### Requests -/

theorem schedules_heads : Schedules (Heads host) fun _ s => s.Heads host ∧ True where
  toUpkeeps := (bears_heads host).upkeeps
  carried h := .imp_left h
  busies _ hs := hs.pacer rfl
  readies hs := hs.asSetUp (.of_same rfl rfl rfl rfl rfl)
  disarms hs := hs.asSetUp (.of_same rfl rfl rfl rfl rfl)

theorem paces_heads (ha : AsksTo host ask) :
    Paces (Heads host) (fun _ s => s.Heads host ∧ True) ask where
  toSchedules := schedules_heads
  tick := preserves_tick (outlasts_heads ha).looks
  connect s hs := by
    rw [hs.settings]
    exact keepsTo_connect ha _
  poll := (outlasts_heads ha).poll
  drop := preserves_disconnect (outlasts_heads ha)

theorem Heads.listening (hs : s.Heads host) (known : List (Listener Request))
    {life signal : List (Listener Request)}
    (hl : Admitted (Request.Heads host) s.link.life.listeners life)
    (hg : Admitted (Request.Heads host) s.link.signal.listeners signal) :
    (s.listening known life signal).Heads host where
  settings := hs.settings
  dials := hs.dials
  attempted := hs.attempted
  attended := (aside_listening hs.attended known hl hg).attended hs.attended

theorem answering_heads (ha : AsksTo host ask) : Answering (Request.Heads host) (Request.Heads host)
    (Heads host) (fun _ s => s.Heads host ∧ True) ask where
  raised _ hs := ⟨hs, trivial⟩
  carried h := .imp_left h
  log _ _ := (outlasts_heads ha).tells rfl
  unloops _ hs := hs.asSetUp (.of_same rfl rfl rfl rfl rfl)
  listens known _ _ hl hg hs := hs.listening known hl hg
  sets _ _ _ hs := hs.asSetUp (.of_same rfl rfl rfl rfl rfl)
  peer _ _ := preserves_ofPeer (fun _ _ hs => hs.asSetUp (.of_same rfl rfl rfl rfl rfl))
    fun _ _ => (outlasts_heads ha).tells rfl
  connect other port hk := by
    obtain rfl : other = host := hk.elim id id
    exact keepsTo_connect ha port
  drop := preserves_disconnect (outlasts_heads ha)
  tick := preserves_tick (outlasts_heads ha).looks
  send code _ _ := .bind (preserves_tellOfHeld fun _ _ => (outlasts_heads ha).tells rfl) fun _ =>
    (outlasts_heads ha).sends code
  put _ _ _ := preserves_put (outlasts_heads ha)
  marks _ {s} := (outlasts_heads ha).stroke (.marks s)
  poll := (outlasts_heads ha).poll
  fire _ s := preserves_fire (outlasts_heads ha).attends ((outlasts_heads ha).stroke (.signals s))
  pace _ := preserves_paceTick (paces_heads ha)
  start _ := preserves_startTicker schedules_heads
  cancel _ := preserves_cancelTicker schedules_heads

theorem keepsTo_perform (depth : Nat) : AsksTo host (perform depth) := by
  induction depth with
  | zero => exact fun _ _ _ => .throw fun hs => ⟨hs, trivial⟩
  | succ depth ih =>
    rintro q ⟨self, script⟩
    exact preserves_answer (answering_heads ih) self script

/-! ### What runs in the loop -/

theorem asSetUp_opening (outcome : Outcome) (s : Session) : AsSetUp s (s.opening outcome) := by
  refine .of_same rfl rfl rfl rfl ?_
  unfold attempted opening
  cases outcome.socket <;> rfl

theorem asSetUp_racing (script : List (Reaction Request)) (s : Session) :
    AsSetUp s (s.racing script) := by
  unfold racing
  split <;> exact .of_same rfl rfl rfl rfl rfl

theorem asSetUp_of_attemptEnds (h : s.dial? d = some dial) (ht : AttemptEnds d dial s t) :
    AsSetUp s t := by
  cases ht with
  | opened script =>
    have h' : ((s.opening dial.attempt.outcome).racing script).dial? d = some dial := by
      simpa using h
    have hraced := (asSetUp_opening dial.attempt.outcome s).trans (asSetUp_racing script _)
    exact hraced.trans (asSetUp_revise h' rfl)
  | closed result why script =>
    have h' : (s.racing script).dial? d = some dial := by simpa using h
    exact (asSetUp_racing script s).trans (asSetUp_revise h' rfl)

theorem asSetUp_armedFor (seconds : Float) (alarm : Alarm) (s : Session) :
    AsSetUp s (s.armedFor seconds alarm) :=
  .of_same rfl rfl rfl rfl rfl

theorem asSetUp_of_awaits {outcome : Outcome} (h : s.dial? d = some dial)
    (ht : Awaits d dial outcome s t) : AsSetUp s t := by
  have hwaits : AsSetUp s (s.awaiting d dial outcome) := asSetUp_revise h rfl
  cases ht with
  | ends hends => exact hwaits.trans (asSetUp_of_attemptEnds (dial?_awaiting h outcome) hends)
  | hangs => exact hwaits
  | timed x => exact hwaits.trans (asSetUp_armedFor x _ _)

/-- The attempt that a dial makes is to the host for which it heads. -/
theorem Heads.asking (hs : s.Heads host) (h : s.dial? d = some dial) :
    (s.asking dial).Heads host where
  settings := hs.settings
  dials := hs.dials
  attempted := by
    intro other ho
    rcases List.mem_cons.mp ho with rfl | ho
    · exact hs.dials d dial h
    · exact hs.attempted other ho
  attended := { hs.attended with }

theorem asSetUp_disarmed (alarm : Alarm) (s : Session) : AsSetUp s (s.disarmed alarm) :=
  .of_same rfl rfl rfl rfl rfl

theorem Heads.of_ends {act : Act Session Unit} (h : act.Ends s t) (hu : act s = .ok () u)
    (hs : u.Heads host) : t.Heads host := by
  rwa [(ends_ok_iff hu).mp h]

/-- An errand, but for the going on of a dial. -/
theorem Heads.errand (hs : s.Heads host) (hd : s.dial? d = some dial) {errand : Errand}
    (he : errand ≠ .resumeDial) (h : (runJob ask (errand.job d)).Ends s t) : t.Heads host := by
  have hrevised : ∀ {new : Dial} {jobs}, new.host = dial.host → (s.revise d new jobs).Heads host :=
    fun hn => hs.asSetUp (asSetUp_revise hd hn)
  cases errand with
  | resumeDial => exact absurd rfl he
  | beginDial =>
    rcases beginDial_cases hd with ⟨-, e⟩ | ⟨x, -, -, e⟩ | ⟨-, -, e⟩
    · exact .of_ends h e (hrevised rfl)
    · have hd' : (s.armedFor x (.dialTimeout d)).dial? d = some dial := hd
      exact .of_ends h e ((hs.asSetUp (asSetUp_armedFor x _ s)).asSetUp (asSetUp_revise hd' rfl))
    · exact .of_ends h e (hrevised rfl)
  | beginAttempt =>
    have hd' : (s.asking dial).dial? d = some dial := hd
    rcases beginAttempt_cases hd with ⟨u, hu, e⟩ | ⟨u, hu, e⟩
    · exact .of_ends h e (hs.asSetUp (asSetUp_of_attemptEnds hd hu))
    · exact .of_ends h e ((hs.asking hd).asSetUp (asSetUp_of_awaits hd' hu))
  | resumeAttempt =>
    have hd' : (s.tellingOff d).dial? d = some dial := hd
    have hoff : AsSetUp s (s.tellingOff d) := .of_same rfl rfl rfl rfl rfl
    rcases resumeAttempt_cases hd with ⟨-, ⟨u, hu, e⟩ | ⟨ending, delay, u, hu, e⟩⟩ |
      ⟨-, ⟨u, hu, e⟩ | e⟩
    · exact .of_ends h e ((hs.asSetUp hoff).asSetUp (asSetUp_of_attemptEnds hd' hu))
    · exact .of_ends h e ((hs.asSetUp hoff).asSetUp (asSetUp_of_awaits hd' hu))
    · exact .of_ends h e (hs.asSetUp (asSetUp_of_attemptEnds hd hu))
    · exact .of_ends h e hs
  | attemptEnded =>
    rcases attemptEnded_cases hd with ⟨result, -, -, e⟩ | ⟨-, e⟩
    · exact .of_ends h e (hrevised rfl)
    · exact .of_ends h e hs
  | shieldDone =>
    rcases shieldDone_cases hd with ⟨-, e⟩ | ⟨-, e⟩
    · exact .of_ends h e hs
    · exact .of_ends h e (hrevised rfl)
  | releaseDial =>
    rcases releaseDial_cases hd with ⟨-, -, e⟩ | ⟨-, e⟩
    · exact .of_ends h e (hrevised rfl)
    · exact .of_ends h e hs
  | settleDial =>
    rcases settleDial_cases hd with ⟨-, -, e⟩ | ⟨-, e⟩
    · exact .of_ends h e (hrevised rfl)
    · exact .of_ends h e hs
  | closeOpened =>
    rcases closeOpened_cases hd with ⟨i, -, e⟩ | ⟨-, e⟩
    · exact .of_ends h e (hs.asSetUp (.of_same rfl rfl rfl rfl rfl))
    · exact .of_ends h e hs

theorem asSetUp_dialEnded (h : s.dial? d = some dial) : AsSetUp s (s.dialEnded d dial) := by
  have h' : (s.disarmed (.dialTimeout d)).dial? d = some dial := h
  exact (asSetUp_disarmed _ s).trans (asSetUp_revise h' rfl)

theorem asSetUp_dialGivenUp (h : s.dial? d = some dial) : AsSetUp s (s.dialGivenUp d dial) := by
  have h' : (s.disarmed (.dialTimeout d)).dial? d = some dial := h
  exact (asSetUp_disarmed _ s).trans (asSetUp_revise h' rfl)

/-- The going on of a dial. -/
theorem stays_resumeDial (ha : AsksTo host ask) (hd : s.dial? d = some dial) :
    Stays (Heads host) (fun _ => True) (resumeDial ask d) s := by
  have hmoves : ∀ target t, Stays (Heads host) (fun _ => True) (moveTo ask target) t :=
    fun target t => preserves_moveTo (outlasts_heads ha).attends
      (fun _ hs => hs.asSetUp (.of_same rfl rfl rfl rfl rfl))
      fun _ hs => ⟨hs.asSetUp (asSetUp_telling t rfl), trivial⟩
  rcases resumeDial_cases ask hd with ⟨i, -, -, -, e⟩ | ⟨reason, -, -, -, -, e⟩ |
    ⟨-, ⟨-, -, e⟩ | ⟨-, -, e⟩ | ⟨-, e⟩ | ⟨-, e⟩⟩
  · rw [dialOpened_apply ask hd i] at e
    have hended := asSetUp_dialEnded hd
    by_cases hp : s.phase = .connecting
    · rw [if_neg (by simpa using hp)] at e
      have hheld : AsSetUp s ((s.dialEnded d dial).dialless.holding i) :=
        hended.trans (.of_same rfl rfl rfl rfl rfl)
      refine .after (fun hs => hs.asSetUp hheld) (.bind (hmoves .connected _) fun _ t => ?_) e
      unfold sayConnected
      refine .get ?_
      split
      · exact preserves_tell fun ht => ht.asSetUp (asSetUp_telling t rfl)
      · exact .pure () t
    · rw [if_pos hp] at e
      exact preserves_of_ok e fun hs => hs.asSetUp (hended.trans (.of_same rfl rfl rfl rfl rfl))
  · obtain ⟨text, e'⟩ := dialFailed_apply ask hd reason
    rw [e'] at e
    have hfailing : AsSetUp s (s.failing d dial text) :=
      (asSetUp_dialGivenUp hd).trans (.of_same rfl rfl rfl rfl rfl)
    exact .after (fun hs => hs.asSetUp hfailing) (.ite (hmoves .disconnected _) (.pure () _)) e
  · rw [settle_apply hd] at e
    exact preserves_of_ok e fun hs => hs.asSetUp (asSetUp_revise hd rfl)
  · rw [endDial_apply hd] at e
    exact preserves_of_ok e fun hs => hs.asSetUp (asSetUp_dialEnded hd)
  · rw [giveUpDial_apply hd] at e
    exact preserves_of_ok e fun hs => hs.asSetUp (asSetUp_dialGivenUp hd)
  · exact preserves_of_ok e id

theorem Arms.asSetUp {x : Float} (h : Arms x s t) : AsSetUp s t where
  settings := by
    rw [h.pacer]
    rfl
  busy := by
    rw [h.pacer]
    rfl
  life := by rw [h.link]
  signal := by rw [h.link]
  hosts d := by
    unfold dial?
    rw [h.network]
  attempted := by
    unfold attempted
    rw [h.trace]
    rfl

/-- A turn of the loop. -/
theorem Heads.turn (hs : s.Heads host) (ha : AsksTo host ask)
    (hscripted : s.Scripted (Request.Heads host)) (h : (turn ask).Ends s t) : t.Heads host := by
  rcases turn_cases h with ⟨-, rfl⟩ | ⟨job, ready, hr, hj⟩
  · exact hs
  have hp : (s.popped ready).Heads host := hs.asSetUp (.of_same rfl rfl rfl rfl rfl)
  rcases job.cases_errand with ⟨d, errand, rfl⟩ | ⟨script, rfl⟩ | rfl
  · cases hd : s.dial? d with
    | none => exact .of_ends hj (runJob_of_absent (s := s.popped ready) errand hd) hp
    | some dial =>
      by_cases he : errand = .resumeDial
      · subst he
        exact (stays_resumeDial (s := s.popped ready) ha hd).ends hp hj
      · exact hp.errand (s := s.popped ready) hd he hj
  · have hw : Script.Within (Request.Heads host) script := hscripted.ready script (by simp [hr])
    have hscript := preserves_play (outlasts_heads ha).attends ha hw (s.popped ready)
    have hrun : Stays (Heads host) (fun _ => True) (runJob ask (.race script)) (s.popped ready) :=
      hscript.rescue (fun _ _ _ he => he.1) fun _ t => .pure () t
    exact hrun.ends hp hj
  · have hrun : Stays (Heads host) (fun _ => True) (runTicker ask) (s.popped ready) :=
      preserves_runTicker (paces_heads ha) (fun h hs => hs.asSetUp h.asSetUp) _
    exact hrun.ends hp hj

/-- A timer that goes off. -/
theorem Heads.alarm (hs : s.Heads host) {alarm : Alarm}
    (h : (goOff alarm).Ends (s.disarmed alarm) t) : t.Heads host := by
  have hd : (s.disarmed alarm).Heads host := hs.asSetUp (asSetUp_disarmed alarm s)
  cases goesOff_of_ends h with
  | unwaited | unheard => exact hd
  | wakesDial h' | wakesAttempt h' => exact hd.asSetUp (asSetUp_revise h' rfl)
  | ticker => exact hd.asSetUp (.of_same rfl rfl rfl rfl rfl)

/-- What a move keeps, if the pacer alone changes its notes. -/
theorem Heads.moves (hs : s.Heads host) (hfit : s.Fit (Request.Heads host)) {move : Move}
    (hn : ∀ pacer, move ≠ .pace pacer) (h : Moves (Request.Heads host) move s t) :
    t.Heads host := by
  cases move with
  | ask request =>
    obtain ⟨hw, depth, h⟩ := h
    exact (keepsTo_perform depth request hw s).ends hs h
  | turn =>
    obtain ⟨depth, h⟩ := h
    exact hs.turn (keepsTo_perform depth) hfit.scripted h
  | alarm timer => exact hs.alarm h.2
  | clock now =>
    cases h
    exact hs.asSetUp (.of_same rfl rfl rfl rfl rfl)
  | pace pacer => exact absurd rfl (hn pacer)
  | stop =>
    obtain ⟨depth, h⟩ := h
    have hstop : Stays (Heads host) (fun _ => True) (stop (perform depth)) s :=
      preserves_stop schedules_heads
        (preserves_disconnect (outlasts_heads (keepsTo_perform depth)) true) s
    exact hstop.ends hs h

theorem Heads.unpaced (hs : s.Heads host) (hfit : s.Fit (Request.Heads host))
    (h : Unpaced (Request.Heads host) s t) : t.Heads host := by
  induction h with
  | refl => exact hs
  | tail hrun hm ih =>
    obtain ⟨move, hn, hm⟩ := hm
    exact ih.moves (hfit.run (Unpaced.run hrun)) hn hm

theorem heads_start (settings : Settings) (store : Store) (outcomes : List Outcome)
    (probe : Option (List (Option Json))) :
    (start settings settings store outcomes probe).Heads settings.host where
  settings := rfl
  dials _ _ hd := by
    unfold dial? start at hd
    simp at hd
  attempted := nofun
  attended := ⟨nofun, nofun⟩

/-- Every attempt of a run is made to the very text that is in the settings. The settings are only
accepted if that text without the brackets around it stands for this machine, so that the text
itself does if and only if it is not written with brackets. -/
theorem attempts_as_written {given : Json.Members} {settings : Settings}
    (accepted : Settings.ofKnown given = .ok settings) (store : Store) {outcomes : List Outcome}
    (probe : Option (List (Option Json)))
    (races : ∀ o ∈ outcomes, Script.Within (Request.Heads settings.host) o.race)
    (h : Unpaced (Request.Heads settings.host) (start settings settings store outcomes probe) s) :
    Loopback.IsLoopback (Loopback.bare settings.host.toList) ∧
    ∀ other ∈ s.attempted, other = settings.host ∧
      (Loopback.IsLoopback other.toList ↔ ¬ Loopback.Bracketed other.toList) := by
  have hbare := (Settings.ofKnown_ok_iff.mp accepted).allowed.host
  have hfit := fit_start settings settings store probe races
  have hheads := (heads_start settings store outcomes probe).unpaced hfit h
  refine ⟨hbare, fun other ho => ?_⟩
  obtain rfl := hheads.attempted other ho
  exact ⟨rfl, Loopback.isLoopback_iff_of_bare hbare⟩

/-- An attempt to a host that is written with brackets. -/
theorem attempts_as_written_in_brackets :
    let settings : Settings := { host := "[::1]" }
    let s := (start settings settings .empty [] none).after [.ask .start, .pass (.int 0)]
    s.attempted = ["[::1]"] ∧ Loopback.IsLoopback "::1".toList ∧
      ¬ Loopback.IsLoopback "[::1]".toList := by
  intro settings s
  have accepted : Settings.ofKnown [("host", .text "[::1]")] = .ok settings := rfl
  have hrun : Unpaced (Request.Heads settings.host) (start settings settings .empty [] none) s := by
    refine unpaced_of_steps _ ?_ (by decide +kernel)
    simp only [List.forall_mem_cons]
    exact ⟨Request.within_plain trivial rfl, trivial, nofun⟩
  have hattempted : s.attempted = ["[::1]"] := by decide +kernel
  obtain ⟨hbare, hhosts⟩ := attempts_as_written accepted .empty none (by simp) hrun
  have hinner : Loopback.bare settings.host.toList = "::1".toList := by decide +kernel
  refine ⟨hattempted, hinner ▸ hbare, fun hlocal => ?_⟩
  have hmem : "[::1]" ∈ s.attempted := by simp [hattempted]
  exact (hhosts _ hmem).2.mp hlocal (.inl ⟨'[', rfl, .inl rfl⟩)

end Session
end DiagnosticWatch
