/-
# What the link leaves as it was set up

Whatever the link does of itself, the listeners stay, no dial goes to another
host, no attempt is made, and of the pacer neither the settings nor whether a
tick is under way change (`Session.AsSetUp`). So what depends on no more than
that holds wherever an act of the link ends, whether with an answer or with a
fault of certain kinds, if it holds so for the requests that listeners make in
the midst of it (`Session.Stays`). Besides, it has to bear the dial that the
link makes when it connects.

Key definitions: `Session.AsSetUp`, `Session.Stays`, `Session.Bears`.
Key theorems: `Session.Stroke.asSetUp`, `Session.Bears.outlasts`,
`Session.stays_connect`, `Session.stays_tick`.
-/
import DiagnosticWatch.Proofs.Session.Pacing

namespace DiagnosticWatch

/-- The host to which an attempt is made. -/
def Event.attempt? : Event → Option String
  | .attempt host _ _ => some host
  | _ => none

theorem Event.attempt?_of_isSaid {e : Event} (h : e.isSaid = true) : e.attempt? = none := by
  cases e <;> first | rfl | cases h

theorem Event.attempt?_of_isPacing {e : Event} (h : e.isPacing = true) : e.attempt? = none := by
  cases e <;> first | rfl | cases h

namespace Session

open Act

variable {A : Request → Prop} {P : Session → Prop} {E : Fault → Prop} {s t u : Session}
  {α : Type} {ask : Request → Act Session Answer}

/-- The hosts to which attempts were made, the latest first. -/
def attempted (s : Session) : List String :=
  s.trace.latestFirst.filterMap Event.attempt?

/-- From `s` to `t` the listeners and the hosts of the dials stay, no attempt is made, and the
pacer keeps its settings and whether a tick is under way. -/
structure AsSetUp (s t : Session) : Prop where
  settings : t.pacer.settings = s.pacer.settings
  busy : t.pacer.busy = s.pacer.busy
  life : t.link.life.listeners = s.link.life.listeners
  signal : t.link.signal.listeners = s.link.signal.listeners
  hosts : ∀ d, (t.dial? d).map Dial.host = (s.dial? d).map Dial.host
  attempted : t.attempted = s.attempted

theorem AsSetUp.refl (s : Session) : AsSetUp s s :=
  ⟨rfl, rfl, rfl, rfl, fun _ => rfl, rfl⟩

theorem AsSetUp.trans (h : AsSetUp s t) (h' : AsSetUp t u) : AsSetUp s u where
  settings := h'.settings.trans h.settings
  busy := h'.busy.trans h.busy
  life := h'.life.trans h.life
  signal := h'.signal.trans h.signal
  hosts d := (h'.hosts d).trans (h.hosts d)
  attempted := h'.attempted.trans h.attempted

/-- Neither the dials nor the pacer nor the listeners change, and no attempt is told. -/
theorem AsSetUp.of_same (pacer : t.pacer = s.pacer)
    (life : t.link.life.listeners = s.link.life.listeners)
    (signal : t.link.signal.listeners = s.link.signal.listeners)
    (dials : t.network.dials = s.network.dials) (told : t.attempted = s.attempted) : AsSetUp s t :=
  ⟨by rw [pacer], by rw [pacer], life, signal, fun d => by unfold dial?; rw [dials], told⟩

theorem asSetUp_telling (s : Session) {e : Event} (h : e.attempt? = none) :
    AsSetUp s (s.telling e) :=
  .of_same rfl rfl rfl rfl (List.filterMap_cons_none h)

theorem asSetUp_revise {d : Nat} {dial new : Dial} (hd : s.dial? d = some dial)
    {jobs : List Job} (hn : new.host = dial.host) : AsSetUp s (s.revise d new jobs) where
  settings := rfl
  busy := rfl
  life := rfl
  signal := rfl
  hosts d' := by
    rw [dial?_revise hd]
    split
    · rename_i h
      rw [h, hd, Option.map_some, Option.map_some, hn]
    · rfl
  attempted := rfl

theorem asSetUp_left (s : Session) : AsSetUp s s.left := by
  unfold left parted closedHeld
  split <;> split <;> exact .of_same rfl rfl rfl rfl rfl

theorem asSetUp_forgotten (s : Session) : AsSetUp s s.forgotten := by
  unfold forgotten
  split <;> exact .of_same rfl rfl rfl rfl rfl

theorem asSetUp_callOff (h : callOff s = .ok () t) : AsSetUp s t := by
  unfold callOff at h
  rw [get_bind_apply] at h
  cases hd : s.link.dial with
  | none =>
    rw [hd] at h
    cases h
    exact .refl s
  | some d =>
    obtain ⟨v, hv, hr⟩ := cancelDial_ok d s
    rw [hd] at h
    cases (bind_of_ok hv).symm.trans h
    obtain rfl | ⟨dial, wake, asked, jobs, hd, -, rfl⟩ := hr
    · exact .of_same rfl rfl rfl rfl rfl
    · have hrevised : AsSetUp s (s.revise d { dial with wake, cancelAsked := asked } jobs) :=
        asSetUp_revise hd rfl
      exact hrevised.trans (.of_same rfl rfl rfl rfl rfl)

/-- Whatever the link does at once leaves it as it was set up. -/
theorem Stroke.asSetUp (h : Stroke s t) : AsSetUp s t := by
  cases h with
  | tells he => exact asSetUp_telling s (Event.attempt?_of_isSaid he)
  | callsOff h => exact asSetUp_callOff h
  | leaves => exact asSetUp_left s
  | forgets => exact asSetUp_forgotten s
  | signals | stores | takesOut | silent | unheld | calm => exact .of_same rfl rfl rfl rfl rfl
  | marks => exact .of_same rfl rfl (ChangeSignal.mark_listeners _ _) rfl rfl

theorem PacerStroke.asSetUp (h : PacerStroke s t) : AsSetUp s t := by
  cases h with
  | tells he => exact asSetUp_telling s (Event.attempt?_of_isPacing he)
  | notes hs hb => exact ⟨hs, hb, rfl, rfl, fun _ => rfl, rfl⟩

/-! ### Acts from which it stays -/

/-- If `P` holds of `s`, it holds where the act ends, and its faults are among `E`. -/
def Stays (P : Session → Prop) (E : Fault → Prop) (act : Act Session α) (s : Session) : Prop :=
  Preserves P (fun e t => P t ∧ E e) act s

/-- It stays wherever the act ends. -/
theorem Stays.ends {act : Act Session α} (h : Stays P E act s) (hs : P s) (ht : act.Ends s t) :
    P t :=
  Preserves.ends h (fun _ _ _ he => he.1) hs ht

/-- What holds of sessions bears whatever leaves it as it was set up; where it holds, the scripts
of the listeners are within `A`; and all faults that can be dealt with are among `E`. -/
structure Bears (A : Request → Prop) (P : Session → Prop) (E : Fault → Prop) : Prop where
  asSetUp : ∀ {s t}, AsSetUp s t → P s → P t
  attended : ∀ {s}, P s → s.Attended A
  ordinary : ∀ {e : Fault}, e.isOrdinary = true → E e

section Bears

variable (hP : Bears A P E)
include hP

theorem Bears.upkeeps : Upkeeps P fun e t => P t ∧ E e where
  stroke h := hP.asSetUp h.asSetUp
  raised he hs := ⟨hs, hP.ordinary he⟩
  caught _ hs := hs.1

variable (ha : ∀ q, Request.Within A q → ∀ s, Stays P E (ask q) s)
include ha

theorem Bears.outlasts : Outlasts A P (fun e t => P t ∧ E e) ask where
  stroke h := hP.asSetUp h.asSetUp
  attended := hP.attended
  raised he hs := ⟨hs, hP.ordinary he⟩
  caught _ hs := hs.1
  asks := ha

/-- The link connects to a host whose dial is borne. -/
theorem stays_connect {host : String} {port : Number} (hd : ∀ {t}, P t → P (t.dialling host port))
    (s : Session) : Stays P E (connect ask host port) s := by
  refine preserves_connect (hP.outlasts ha) ?_ s
  exact {
    sets := fun _ => hP.asSetUp (.of_same rfl rfl rfl rfl rfl)
    refuses := fun hs => ⟨hP.asSetUp (asSetUp_telling _ rfl) hs, hP.ordinary rfl⟩
    dials := hd }

theorem stays_tick (s : Session) : Stays P E (tick ask) s :=
  preserves_tick (hP.outlasts ha).looks s

theorem stays_probe {script : List (Reaction Request)} (h : Script.Within A script) (s : Session) :
    Stays P E (Calls.own ask script).probe s :=
  .bind (preserves_play (hP.outlasts ha).attends ha h s) fun _ t => preserves_laidDown hP.upkeeps t

end Bears

end Session
end DiagnosticWatch
