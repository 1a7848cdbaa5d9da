/-
# Who takes care of a connection

Every connection that an attempt opens is taken care of once: the link takes
it, and closes it when it leaves it, or it is closed because the link did not
want it or its attempt was given up. Each errand, each change and each thing a
dial does when it goes on keeps the account, and so does a run.

A dial whose time cannot be limited does not wait for its attempt, and nobody
takes care of what that opens.

Key theorems: `Session.Sound.errand`, `Session.Sound.work`,
`Session.Sound.resumes`, `Session.sound_of_run`,
`Session.closed_once_or_held_iff`.
-/
import DiagnosticWatch.Proofs.Session.Account
import DiagnosticWatch.Proofs.Session.Runs

namespace DiagnosticWatch
namespace Session

open Act

variable {A : Request → Prop} {s t u v : Session} {d : Nat} {dial new : Dial} {link : Settings}

/-! ### Errands -/

variable {ask : Request → Act Session Answer}

/-- An errand that finds nothing to do leaves the session as it was popped. -/
theorem Sound.moot (hs : s.Sound link) {errand : Errand} {ready : List Job}
    (h : s.loop.ready = errand.job d :: ready) (hd : s.dial? d = some dial)
    (hm : errand.Moot dial) : Kept link s (s.popped ready) := by
  have hd' : (s.popped ready).dial? d = some dial := hd
  have hok := (hs.due h hd).moot hm
  have := hs.revise hd (beside_popped h) [] (fun _ => Iff.rfl) hok
  rwa [List.map_nil, revise_self hd'] at this

theorem Sound.begin_dial (hs : s.Sound link) {ready : List Job}
    (h : s.loop.ready = Errand.job d .beginDial :: ready) (hd : s.dial? d = some dial)
    (ends : (beginDial d).Ends (s.popped ready) t) : Kept link s t := by
  have hok := hs.due h hd
  have hp := beside_popped h
  have hd' : (s.popped ready).dial? d = some dial := hd
  have hset : (s.popped ready).link.settings = link := hs.settings
  have hfresh := hok.fresh hok.task.begun.1
  rcases beginDial_cases hd' with ⟨-, e⟩ | ⟨x, -, hx, e⟩ | ⟨-, hx, e⟩ <;>
    rw [(ends_ok_iff e).mp ends]
  · exact hs.revise hd hp [] (fun _ => Iff.rfl) hok.begin_cancelled
  · have hf : fee link = 1 := by simp [fee, ← hset, hx]
    have hv : Beside d s ((s.popped ready).armedFor x (.dialTimeout d)) :=
      hp.trans (beside_armedFor x (fun d' _ => by simp) _)
    refine hs.revise hd hv [.beginAttempt] (by simp [hfresh.1]) ?_
    rw [hf] at hok ⊢
    refine hok.begin_waits.weaken (fun h => ?_) fun _ _ => rfl
    exact (rings_armedFor.mp h).resolve_right nofun
  · have hf : fee link = 0 := by simp [fee, ← hset, hx]
    refine hs.revise hd hp [.beginAttempt] (by simp [hfresh.1]) ?_
    rw [hf] at hok ⊢
    exact hok.begin_dies

theorem Sound.begin_attempt (hs : s.Sound link) {ready : List Job}
    (h : s.loop.ready = Errand.job d .beginAttempt :: ready) (hd : s.dial? d = some dial)
    (ends : (beginAttempt d).Ends (s.popped ready) t) : Kept link s t := by
  have hok := hs.due h hd
  have hp := beside_popped h
  have hd' : (s.popped ready).dial? d = some dial := hd
  obtain ⟨hfresh, hb, hg, hq⟩ := hok.attempt.fresh
  have hrun : dial.attempt.stage.isRunning = true := by rw [hfresh]; rfl
  have hother : ∀ e, e ≠ .beginAttempt → e ≠ .resumeAttempt →
      (s.popped ready).errands d e = s.errands d e := fun e he _ => errands_popped_of_errand h he
  rcases beginAttempt_cases hd' with ⟨u, hu, e⟩ | ⟨u, hu, e⟩ <;> rw [(ends_ok_iff e).mp ends]
  · exact hs.attempt_ends hd hrun hp hother hb hg hq hu
  · exact hs.attempt_awaits hd hrun (hp.trans (beside_asking d dial (s.popped ready))) hother hb hg
      hq hu

theorem Sound.resume_attempt (hs : s.Sound link) {ready : List Job}
    (h : s.loop.ready = Errand.job d .resumeAttempt :: ready) (hd : s.dial? d = some dial)
    (ends : (resumeAttempt d).Ends (s.popped ready) t) : Kept link s t := by
  have hok := hs.due h hd
  have hp := beside_popped h
  have hd' : (s.popped ready).dial? d = some dial := hd
  obtain ⟨hstage, hwake, hb, hg⟩ := hok.attempt.waiting
  have hrun : dial.attempt.stage.isRunning = true := by rw [hstage]; rfl
  have hother : ∀ e, e ≠ .beginAttempt → e ≠ .resumeAttempt →
      (s.popped ready).errands d e = s.errands d e := fun e _ he => errands_popped_of_errand h he
  rcases resumeAttempt_cases hd' with ⟨-, ⟨u, hu, e⟩ | ⟨ending, delay, u, hu, e⟩⟩ |
    ⟨hc, ⟨u, hu, e⟩ | e⟩ <;> rw [(ends_ok_iff e).mp ends]
  · exact hs.attempt_ends hd hrun (hp.trans (beside_tellingOff d _)) hother hb hg
      (not_rings_disarmed d _) hu
  · exact hs.attempt_awaits hd hrun (hp.trans (beside_tellingOff d _)) hother hb hg
      (not_rings_disarmed d _) hu
  · refine hs.attempt_ends hd hrun hp hother hb hg (fun hr => ?_) hu
    have hreleased := (hok.attempt.rings hr).2
    cases hw : dial.attempt.wake with
    | waiting => exact hwake hw
    | released => exact hreleased hw
    | cancelled => exact hc hw
  · exact hs.moot h hd trivial

theorem Sound.close_opened (hs : s.Sound link) {ready : List Job}
    (h : s.loop.ready = Errand.job d .closeOpened :: ready) (hd : s.dial? d = some dial)
    (ends : (closeOpened d).Ends (s.popped ready) t) : Kept link s t := by
  have hok := hs.due h hd
  have hd' : (s.popped ready).dial? d = some dial := hd
  rcases closeOpened_cases hd' with ⟨i, ha, e⟩ | ⟨hm, e⟩ <;> rw [(ends_ok_iff e).mp ends]
  · have hspent : ∀ j, ((s.popped ready).closed i).spent j = s.spent j + if j = i then 1 else 0 :=
      fun j => spent_closed i j _
    refine hs.touch hd (t := (s.popped ready).closed i)
      ((beside_popped h).toConcerns.trans ⟨fun _ _ => rfl, fun _ _ => rfl, fun _ _ h => h⟩) hd' rfl
      (hs.held.congr_link rfl) (by simp [closed, popped]) (fun _ => Iff.rfl) (fun j hj => ?_) ?_
    · have hji : j ≠ i := fun hji => hj (hji ▸ ha)
      rw [hspent, if_neg hji]
      rfl
    · refine hok.close_opened ha ?_
      rw [hspent, if_pos rfl]
  · exact hs.moot h hd hm

/-- Every errand but the going on of a dial keeps the account. -/
theorem Sound.errand (hs : s.Sound link) {errand : Errand} {ready : List Job}
    (h : s.loop.ready = errand.job d :: ready) (hd : s.dial? d = some dial)
    (other : errand ≠ .resumeDial) (ends : (runJob ask (errand.job d)).Ends (s.popped ready) t) :
    Kept link s t := by
  have hok := hs.due h hd
  have hp := beside_popped h
  have hd' : (s.popped ready).dial? d = some dial := hd
  cases errand with
  | resumeDial => exact absurd rfl other
  | beginDial => exact hs.begin_dial h hd ends
  | beginAttempt => exact hs.begin_attempt h hd ends
  | resumeAttempt => exact hs.resume_attempt h hd ends
  | attemptEnded =>
    rcases attemptEnded_cases hd' with ⟨result, -, ha, e⟩ | ⟨hm, e⟩ <;>
      rw [(ends_ok_iff e).mp ends]
    · exact hs.revise hd hp [.shieldDone, .releaseDial] (fun _ => Iff.rfl) (hok.learn ha)
    · exact hs.moot h hd hm
  | shieldDone =>
    rcases shieldDone_cases hd' with ⟨-, e⟩ | ⟨-, e⟩ <;> rw [(ends_ok_iff e).mp ends]
    · exact hs.moot h hd trivial
    · exact hs.revise hd hp [] (fun _ => Iff.rfl) hok.let_go
  | releaseDial =>
    rcases releaseDial_cases hd' with ⟨hw, -, e⟩ | ⟨hm, e⟩ <;> rw [(ends_ok_iff e).mp ends]
    · exact hs.revise hd hp [.resumeDial] (fun _ => Iff.rfl)
        ((hs.dials d dial hd).woken (by rw [hw]; nofun)
          (fun e he _ => errands_popped_of_errand h he) .released nofun)
    · exact hs.moot h hd hm
  | settleDial =>
    rcases settleDial_cases hd' with ⟨hw, -, e⟩ | ⟨hm, e⟩ <;> rw [(ends_ok_iff e).mp ends]
    · obtain ⟨b, hb⟩ := hw
      exact hs.revise hd hp [.resumeDial] (fun _ => Iff.rfl)
        ((hs.dials d dial hd).woken (by rw [hb]; nofun)
          (fun e _ he => errands_popped_of_errand h he) .released nofun)
    · exact hs.moot h hd hm
  | closeOpened => exact hs.close_opened h hd ends

/-! ### Work -/

theorem errands_eq_tasks (s : Session) (d : Nat) (e : Errand) :
    s.errands d e = s.tasks.countP fun job => job.errand? = some (d, e) := by
  unfold errands tasks
  rw [List.countP_filter]
  refine List.countP_congr fun job _ => ?_
  cases job <;> simp [Job.errand?, Job.isTask]

theorem rings_iff_alarms (s : Session) (d : Nat) :
    s.Rings d ↔ ∃ timer ∈ s.alarms, timer.alarm = .attempt d := by
  unfold Rings alarms
  constructor
  · rintro ⟨timer, hm, ht⟩
    exact ⟨timer, List.mem_filter.mpr ⟨hm, by simp [ht]⟩, ht⟩
  · rintro ⟨timer, hm, ht⟩
    exact ⟨timer, (List.mem_filter.mp hm).1, ht⟩

theorem Sound.alike (hs : s.Sound link) (h : Alike s t) : Kept link s t := by
  refine hs.congr h.settings ?_ h.dial? (fun d => ?_) (fun d hr => ?_) h.connections ?_
  · exact hs.held.congr h.phase h.writesTo h.readsFrom
  · funext e
    rw [errands_eq_tasks, errands_eq_tasks, h.tasks]
  · rw [rings_iff_alarms] at hr ⊢
    rwa [h.alarms] at hr
  · funext i
    unfold spent
    rw [h.closes, h.writesTo]

theorem Sound.dialless (hs : s.Sound link) : Kept link s s.dialless :=
  hs.congr rfl hs.held (fun _ => rfl) (fun _ => rfl) (fun _ h => h) rfl rfl

theorem Sound.cancel (hs : s.Sound link) (h : cancelDial d s = .ok () t) : Kept link s t := by
  cases hd : s.dial? d with
  | none =>
    obtain ⟨u, hu, rfl | ⟨dial, _, _, _, hd', -⟩⟩ := cancelDial_ok d s
    · cases hu.symm.trans h
      exact hs.kept
    · rw [hd] at hd'
      cases hd'
  | some dial =>
    have hok := hs.dials d dial hd
    rcases cancelDial_cases hd with ⟨-, e⟩ | ⟨hf, -, -, e⟩ | ⟨-, -, e⟩ <;> cases e.symm.trans h
    · exact hs.kept
    · exact hs.revise hd (Beside.refl d s) [.resumeDial] (fun _ => Iff.rfl)
        (hok.woken hf (fun _ _ _ => rfl) .cancelled nofun)
    · exact hs.revise hd (Beside.refl d s) [] (fun _ => Iff.rfl) hok.cancel_busy

theorem dial?_dialling (host : String) (port : Number) (s : Session) (d : Nat) :
    (s.dialling host port).dial? d =
      if d = s.network.dials.size then some (.fresh host port) else s.dial? d := by
  unfold Session.dial? dialling
  rw [Array.getElem?_push]

theorem errands_dialling (host : String) (port : Number) (s : Session) (d : Nat) (e : Errand) :
    (s.dialling host port).errands d e = s.errands d e +
      if d = s.network.dials.size then [Errand.beginDial].count e else 0 := by
  unfold errands dialling
  rw [List.countP_append, ← errands_map]
  rfl

theorem concerns_dialling (host : String) (port : Number) (s : Session) :
    Concerns s.network.dials.size s (s.dialling host port) where
  dials d h := by rw [dial?_dialling, if_neg h]
  errands d h := by
    funext e
    rw [errands_dialling, if_neg h, Nat.add_zero]
  rings _ _ h := h

/-- A new dial is due to begin, and nothing else is. -/
theorem Sound.dialling (hs : s.Sound link) (host : String) (port : Number) :
    Kept link s (s.dialling host port) := by
  let d := s.network.dials.size
  have hc : Concerns d s (s.dialling host port) := concerns_dialling host port s
  have hnone : s.dial? d = none := by simp [d, Session.dial?]
  have hn : (s.dialling host port).dial? d = some (.fresh host port) := by
    rw [dial?_dialling, if_pos rfl]
  obtain ⟨hdue, hquiet⟩ := hs.absent d hnone
  have ho : ∀ d' i, (s.dialling host port).Opened d' i ↔ s.Opened d' i := by
    intro d' i
    unfold Opened
    by_cases h : d' = d
    · simp [h, hn, hnone, Dial.fresh]
    · rw [hc.dials d' h]
  have hok : (Dial.fresh host port).Sound (fee link) ((s.dialling host port).errands d)
      ((s.dialling host port).Rings d) s.spent := by
    have he : (s.dialling host port).errands d = fun e => if e = .beginDial then 1 else 0 := by
      funext e
      rw [errands_dialling, hdue, if_pos rfl]
      cases e <;> rfl
    rw [he]
    exact Dial.Sound.fresh_sound hquiet
  exact {
    opened := fun d' i h => (ho d' i).mpr h
    sound.settings := hs.settings
    sound.held := hs.held
    sound.dials := hc.dials_sound hn hs hok fun _ _ _ _ => rfl
    sound.absent := hc.absent hn hs
    sound.owner := by
      intro i hi
      obtain ⟨d', h⟩ := hs.owner i hi
      exact ⟨d', (ho d' i).mpr h⟩
    sound.once := fun d₁ d₂ i h₁ h₂ => hs.once d₁ d₂ i ((ho d₁ i).mp h₁) ((ho d₂ i).mp h₂)
    sound.known := fun d' i h => hs.known d' i ((ho d' i).mp h)
    sound.unspent := hs.unspent }

theorem Sound.change (hs : s.Sound link) (h : Change A s t) : Kept link s t := by
  cases h with
  | plain alike => exact hs.alike alike
  | listen | put | mark | report | signal =>
    exact hs.congr rfl hs.held (fun _ => rfl) (fun _ => rfl) (fun _ h => h) rfl rfl

theorem spent_telling {e : Event} (h : e.isWord = true) (s : Session) :
    (s.telling e).spent = s.spent := by
  funext i
  cases e <;> first | rfl | cases h

theorem Sound.part (hs : s.Sound link) (h : Part s t) : Kept link s t := by
  cases h with
  | alike h => exact hs.alike h
  | word h =>
    exact hs.congr rfl hs.held (fun _ => rfl) (fun _ => rfl) (fun _ h => h) rfl (spent_telling h s)
  | setOut h =>
    have hno := hs.held.1 (by rw [h]; nofun)
    exact hs.congr rfl ⟨fun _ => hno, nofun⟩ (fun _ => rfl) (fun _ => rfl) (fun _ h => h) rfl rfl
  | cancel recorded h => exact (hs.cancel h).trans (hs.cancel h).sound.dialless
  | dial host port h => exact hs.dialling host port

/-- Whoever leaves a connection closes it, if there is one. -/
theorem spent_parted (s : Session) : s.parted.spent = s.spent := by
  funext j
  unfold spent parted closedHeld
  cases hw : s.link.writesTo with
  | none => simp [closes]
  | some i =>
    show (s.closed i).closes j + _ = _
    rw [closes_closed]
    simp [eq_comm]

theorem parted_network (s : Session) : s.parted.network.dials = s.network.dials ∧
    s.parted.network.connections.size = s.network.connections.size := by
  unfold parted closedHeld
  cases s.link.writesTo <;> simp [closed]

theorem left_keeps (s : Session) : s.left.network = s.parted.network ∧ s.left.loop = s.loop ∧
    s.left.link.settings = s.link.settings ∧ s.left.link.dial = s.link.dial ∧
    s.left.link.writesTo = none ∧ s.left.link.readsFrom = none ∧ s.left.spent = s.parted.spent := by
  unfold Session.left parted closedHeld
  split <;> split <;> exact ⟨rfl, rfl, rfl, rfl, rfl, rfl, rfl⟩

theorem Sound.left (hs : s.Sound link) : Kept link s s.left := by
  obtain ⟨hnetwork, hloop, hset, -, -, -, hspent⟩ := left_keeps s
  obtain ⟨hdials, hsize⟩ := parted_network s
  refine hs.congr hset (held_left s) (fun d => ?_) (fun d => ?_) (fun d h => ?_) ?_
    (hspent.trans (spent_parted s))
  · rw [Session.dial?, hnetwork, hdials]
    rfl
  · funext e
    rw [errands, hloop]
    rfl
  · rwa [Rings, hloop] at h
  · rw [hnetwork, hsize]

theorem left_keeps_dials (s : Session) :
    s.left.network.dials = s.network.dials ∧ s.left.link.dial = s.link.dial := by
  obtain ⟨hnetwork, -, -, hdial, -⟩ := left_keeps s
  exact ⟨by rw [hnetwork, (parted_network s).1], hdial⟩

theorem forgotten_keeps (s : Session) :
    s.forgotten.network.dials = s.network.dials ∧ s.forgotten.link.dial = s.link.dial := by
  unfold Session.forgotten
  split <;> exact ⟨rfl, rfl⟩

theorem dials_of_change (h : Change A s t) : t.network.dials = s.network.dials := by
  cases h with
  | plain alike => exact alike.dials
  | listen | put | mark | report | signal => rfl

/-! Dials are only added. -/

theorem dials_le_of_part (h : Part s t) : s.network.dials.size ≤ t.network.dials.size := by
  cases h with
  | alike alike => exact Nat.le_of_eq (congrArg Array.size alike.dials).symm
  | word | setOut => exact Nat.le_refl _
  | @cancel u _ _ hc =>
    have hsize : u.network.dials.size = s.network.dials.size := (cancelDial_keeps hc).2.2
    exact Nat.le_of_eq hsize.symm
  | dial =>
    simp only [dialling, Array.size_push]
    omega

theorem dials_le_of_work (h : Work A s t) : s.network.dials.size ≤ t.network.dials.size := by
  refine h.keeps (P := fun t => s.network.dials.size ≤ t.network.dials.size) ?_ ?_ ?_ ?_
    (Nat.le_refl _)
  · intro u v hc hle
    rwa [dials_of_change hc]
  · exact fun hp hle => Nat.le_trans hle (dials_le_of_part hp)
  · intro u hle
    rwa [(left_keeps_dials u).1]
  · intro u hle
    rwa [(forgotten_keeps u).1]

theorem Sound.forgotten (hs : s.Sound link) : Kept link s s.forgotten := by
  unfold Session.forgotten
  split <;> exact hs.congr rfl hs.held (fun _ => rfl) (fun _ => rfl) (fun _ h => h) rfl rfl

theorem Sound.work (hs : s.Sound link) (h : Work A s t) : Kept link s t :=
  h.keeps (fun hc hk => hk.trans (hk.sound.change hc)) (fun hp hk => hk.trans (hk.sound.part hp))
    (fun hk => hk.trans hk.sound.left) (fun hk => hk.trans hk.sound.forgotten) hs.kept

theorem Sound.tells {words : List Event} (hs : s.Sound link) (h : Tells s words t) : Kept link s t :=
  h.keeps (P := Kept link s) (fun hp hk => hk.trans (hk.sound.part hp)) hs.kept

/-! ### A dial that goes on -/

theorem waits_of_word {result : Result} (h : dial.word = some result) :
    dial.stage.waits = true := by
  unfold Dial.word at h
  split at h
  · rename_i hs _
    rw [hs]
    rfl
  · rename_i hs _
    rw [hs]
    rfl
  · rename_i hs
    rw [hs]
    rfl
  · cases h

theorem forsaken_stage (attempt : Attempt) : attempt.forsaken.stage = attempt.stage := by
  unfold Attempt.forsaken
  split <;> rfl

theorem beside_ended {ready : List Job} (h : s.loop.ready = Errand.job d .resumeDial :: ready) :
    Beside d s ((s.popped ready).disarmed (.dialTimeout d)) :=
  (beside_popped h).trans (beside_disarmed d _ _)

theorem Sound.given_up (hs : s.Sound link) {ready : List Job}
    (h : s.loop.ready = Errand.job d .resumeDial :: ready) (hd : s.dial? d = some dial)
    (hw : dial.stage.waits = true) : Kept link s ((s.popped ready).dialGivenUp d dial) := by
  have hok := (hs.due h hd).resume_gives_up hw
  refine hs.revise hd (beside_ended h) _ (fun i => ?_) (hok.weaken rings_of_disarmed fun _ _ => rfl)
  rw [forsaken_stage]

theorem concerns_ended {ready : List Job} (h : s.loop.ready = Errand.job d .resumeDial :: ready)
    (hd : s.dial? d = some dial) : Concerns d s ((s.popped ready).dialEnded d dial) := by
  have hd' : ((s.popped ready).disarmed (.dialTimeout d)).dial? d = some dial := hd
  exact (beside_ended h).toConcerns.trans (concerns_revise hd' _ [])

theorem errands_dialEnded (s : Session) : (s.dialEnded d dial).errands d = s.errands d :=
  errands_revise _ d _ []

/-- A dial that hands over what it has opened keeps the account, whatever takes care of
that. -/
theorem Sound.hand_over (hs : s.Sound link) {ready : List Job}
    (h : s.loop.ready = Errand.job d .resumeDial :: ready) (hd : s.dial? d = some dial)
    (stage : dial.stage = .waiting) {i : Nat} (shield : dial.shield = .resolved (.opened i))
    (loop : t.loop = ((s.popped ready).dialEnded d dial).loop)
    (dials : t.network.dials = ((s.popped ready).dialEnded d dial).network.dials)
    (size : t.network.connections.size = s.network.connections.size)
    (settings : t.link.settings = s.link.settings) (held : t.Held)
    (spent : ∀ j, t.spent j = s.spent j + if j = i then 1 else 0) : Kept link s t := by
  have hok := hs.due h hd
  have hd' : (s.popped ready).dial? d = some dial := hd
  have hopened := hok.shield.resolved _ shield
  have htd : ∀ d', t.dial? d' = ((s.popped ready).dialEnded d dial).dial? d' := fun d' => by
    rw [dial?, dials]
    rfl
  have hte : ∀ d', t.errands d' = ((s.popped ready).dialEnded d dial).errands d' := fun d' => by
    funext e
    rw [errands, loop]
    rfl
  have htr : ∀ d', t.Rings d' → ((s.popped ready).dialEnded d dial).Rings d' := fun d' hr => by
    rwa [Rings, loop] at hr
  have hc := concerns_ended h hd
  refine hs.touch hd ⟨fun d' hne => (htd d').trans (hc.dials d' hne),
    fun d' hne => (hte d').trans (hc.errands d' hne),
    fun d' hne hr => hc.rings d' hne (htr d' hr)⟩
    ((htd d).trans (dial?_dialEnded hd')) settings held size (fun _ => Iff.rfl) (fun j hj => ?_) ?_
  · have hji : j ≠ i := fun hji => hj (hji ▸ hopened)
    rw [spent, if_neg hji]
    rfl
  · rw [hte, errands_dialEnded]
    refine (hok.resume_opened stage shield ?_).weaken
      (fun hr => rings_of_disarmed (htr d hr)) fun _ _ => rfl
    rw [spent, if_pos rfl]

/-- The account is right when the link has taken what a dial has opened. -/
theorem Sound.connected (hs : s.Sound link) {ready : List Job}
    (h : s.loop.ready = Errand.job d .resumeDial :: ready) (hd : s.dial? d = some dial)
    (stage : dial.stage = .waiting) {i : Nat} (shield : dial.shield = .resolved (.opened i))
    (phase : s.phase = .connecting) :
    Kept link s ((((s.popped ready).dialEnded d dial).dialless.holding i).movedTo .connected) := by
  have hnone : s.link.writesTo = none := (hs.held.1 (by rw [phase]; nofun)).1
  refine hs.hand_over h hd stage shield rfl rfl rfl rfl
    ⟨fun h => absurd rfl h, fun _ => ⟨i, rfl, rfl⟩⟩ fun j => ?_
  show s.closes j + (if some i = some j then 1 else 0) = _
  unfold spent
  rw [hnone]
  simp [eq_comm]

/-- The account is right when the link has learned that a dial has failed. -/
theorem Sound.disconnected (hs : s.Sound link) {ready : List Job}
    (h : s.loop.ready = Errand.job d .resumeDial :: ready) (hd : s.dial? d = some dial)
    (word : dial.word = some (.failed false)) (text : String) (phase : s.phase = .connecting) :
    Kept link s (((s.popped ready).failing d dial text).movedTo .disconnected) := by
  have hg := hs.given_up h hd (waits_of_word word)
  have hnone := hs.held.1 (by rw [phase]; nofun)
  exact hg.trans (hg.sound.congr rfl ⟨fun _ => hnone, nofun⟩ (fun _ => rfl) (fun _ => rfl)
    (fun _ h => h) rfl rfl)

theorem Sound.resumes (hs : s.Sound link) {ready : List Job}
    (h : s.loop.ready = Errand.job d .resumeDial :: ready) (hd : s.dial? d = some dial)
    (hr : Resumes A d dial (s.popped ready) t) : Kept link s t := by
  have hok := hs.due h hd
  cases hr with
  | late hw =>
    refine hs.moot h hd (show dial.stage.waits = false from ?_)
    rcases hw with hw | hw <;> rw [hw] <;> rfl
  | settles stage shield =>
    exact hs.revise hd (beside_popped h) [.shieldDone, .settleDial] (fun _ => Iff.rfl)
      (hok.resume_settles stage _)
  | dies stage shield =>
    exact hs.revise hd (beside_ended h) [] (fun _ => Iff.rfl)
      ((hok.resume_dies stage shield nofun).weaken rings_of_disarmed fun _ _ => rfl)
  | givesUp hw word =>
    refine hs.given_up h hd ?_
    rcases hw with ⟨hw, -⟩ | ⟨b, hw⟩ <;> rw [hw] <;> rfl
  | @refused i stage shield phase =>
    refine hs.hand_over h hd stage shield rfl rfl ?_ rfl (hs.held.congr rfl rfl rfl)
      (fun j => spent_closed i j _)
    simp [closed, Session.dialless, dialEnded, Session.revise, Session.disarmed, popped]
  | connects stage shield phase listeners =>
    have hk := hs.connected h hd stage shield phase
    exact hk.trans (hk.sound.work listeners)
  | ignored word text phase =>
    have hg := hs.given_up h hd (waits_of_word word)
    exact hg.trans (hg.sound.congr rfl hg.sound.held (fun _ => rfl) (fun _ => rfl) (fun _ h => h)
      rfl rfl)
  | disconnects word text phase listeners =>
    have hk := hs.disconnected h hd word text phase
    exact hk.trans (hk.sound.work listeners)

/-! ### Runs -/

theorem Sound.disarmed (hs : s.Sound link) (alarm : Alarm) : Kept link s (s.disarmed alarm) :=
  hs.congr rfl hs.held (fun _ => rfl) (fun _ => rfl) (fun _ h => rings_of_disarmed h) rfl rfl

/-- A timer that goes off wakes whoever waits for it. -/
theorem Sound.alarm (hs : s.Sound link) {timer : Timer} (hm : timer ∈ s.loop.timers)
    (h : (goOff timer.alarm).Ends (s.disarmed timer.alarm) t) : Kept link s t := by
  have hq := hs.disarmed timer.alarm
  generalize ha : timer.alarm = alarm at h hq
  cases goesOff_of_ends h with
  | unwaited | unheard => exact hq
  | @wakesDial d dial present stage _ =>
    have hd : s.dial? d = some dial := present
    exact hs.revise hd (beside_disarmed d (.dialTimeout d) s) [.resumeDial] (fun _ => Iff.rfl)
      (((hs.dials d dial hd).woken (by rw [stage]; nofun) (fun _ _ _ => rfl) .released nofun).weaken
        rings_of_disarmed fun _ _ => rfl)
  | @wakesAttempt d dial present wake =>
    have hd : s.dial? d = some dial := present
    have hr : s.Rings d := ⟨timer, hm, ha⟩
    exact hs.revise hd (beside_disarmed d (.attempt d) s) [.resumeAttempt] (fun _ => Iff.rfl)
      (((hs.dials d dial hd).wake_attempt hr wake).weaken
        (fun h => not_rings_disarmed d s h) fun _ _ => rfl)
  | ticker =>
    refine hq.trans (hq.sound.congr rfl hq.sound.held (fun _ => rfl) (fun d => ?_) (fun _ h => h)
      rfl rfl)
    funext e
    unfold errands
    rw [List.countP_append]
    rfl

/-- What is no errand may be taken out. -/
theorem Sound.popped (hs : s.Sound link) {job : Job} {ready : List Job}
    (h : s.loop.ready = job :: ready) (other : ∀ d errand, job ≠ Errand.job d errand) :
    Kept link s (s.popped ready) := by
  refine hs.congr rfl hs.held (fun _ => rfl) (fun d => ?_) (fun _ h => h) rfl rfl
  refine errands_popped_of_ne h fun e => ?_
  rw [Job.errand?_of_other other]
  nofun

theorem Sound.turns (hs : s.Sound link) (h : Turns A s t) : Kept link s t := by
  cases h with
  | idle => exact hs.kept
  | @absent _ errand _ h absent =>
    have hdue := congrFun (errands_eq_more h) errand
    rw [(hs.absent _ absent).1, Errand.more, List.count_singleton_self] at hdue
    cases hdue
  | errand h present other ends => exact hs.errand h present other ends
  | resumes h present resumes => exact hs.resumes h present resumes
  | works h other work =>
    have hp := hs.popped h other
    exact hp.trans (hp.sound.work work)

theorem sound_start (link pacer : Settings) (store : Store) (outcomes : List Outcome)
    (probe : Option (List (Option Json))) : (start link pacer store outcomes probe).Sound link where
  settings := rfl
  held := ⟨fun _ => ⟨rfl, rfl⟩, nofun⟩
  dials d dial hd := by simp [start, dial?] at hd
  absent d _ := ⟨fun _ => rfl, fun ⟨_, hm, _⟩ => nomatch hm⟩
  owner i hi := by simp [start] at hi
  once := by
    rintro d d' i ⟨dial, hd, -⟩
    simp [start, dial?] at hd
  known := by
    rintro d i ⟨dial, hd, -⟩
    simp [start, dial?] at hd
  unspent _ _ := rfl

/-- Every move keeps the account. -/
theorem Sound.moves (hs : s.Sound link) (hsc : s.Fit A) {move : Move} (hm : Moves A move s t) :
    Kept link s t := by
  rcases moves_cases hsc hm with hw | ⟨-, ht⟩ | ⟨timer, hmem, hg⟩
  · exact hs.work hw
  · exact hs.turns ht
  · exact hs.alarm hmem hg

/-- At every point of every run the account is right. -/
theorem sound_of_run {pacer : Settings} {store : Store} {outcomes : List Outcome}
    {probe : Option (List (Option Json))} (ho : ∀ o ∈ outcomes, Script.Within A o.race)
    (h : Run A (start link pacer store outcomes probe) s) : s.Sound link :=
  (h.keeps (fun _ hw hs => (hs.work hw).sound) (fun _ ht hs => (hs.turns ht).sound)
    (fun _ hm hg hs => (hs.alarm hm hg).sound) (fit_start link pacer store probe ho)
    (sound_start link pacer store outcomes probe)).2

/-! ### Connections are closed once -/

theorem fee_le_one (link : Settings) : fee link ≤ 1 := by
  unfold fee
  split <;> omega

theorem Sound.spent_le (hs : s.Sound link) (i : Nat) : s.spent i ≤ fee link := by
  by_cases hi : i < s.network.connections.size
  · obtain ⟨d, dial, hd, ho⟩ := hs.owner i hi
    have := (hs.dials d dial hd).care.opened i ho
    omega
  · have := hs.unspent i (by omega)
    omega

/-- When nothing is ready, every opened connection has been taken care of. -/
theorem Sound.spent_of_idle (hs : s.Sound link) (hr : s.loop.ready = []) {i : Nat}
    (hi : i < s.network.connections.size) : s.spent i = fee link := by
  obtain ⟨d, dial, hd, ho⟩ := hs.owner i hi
  have hok := hs.dials d dial hd
  have hdue : ∀ e, s.errands d e = 0 := fun e => by simp [errands, hr]
  have := hok.care.opened i ho
  rw [hok.not_waits hdue ho, hdue] at this
  simpa using this

/-- A connection is closed at most once. When nothing is ready, every connection that was
opened has been closed but the one that the link has, which has not, provided that the
time of a dial can be limited; if it cannot, no connection is ever closed or taken. -/
theorem closed_once_or_held_iff (link pacer : Settings) (store : Store) (outcomes : List Outcome)
    (probe : Option (List (Option Json)))
    (h : Run (fun _ => True) (start link pacer store outcomes probe) s) :
    (∀ i, s.closes i ≤ 1) ∧
    (s.loop.ready = [] →
      ((∀ i < s.network.connections.size,
          (s.link.writesTo = some i ∧ s.closes i = 0) ∨
          (s.link.writesTo ≠ some i ∧ s.closes i = 1)) ↔
        link.connectTimeout.toFloat?.isSome ∨ s.network.connections.size = 0)) ∧
    (link.connectTimeout.toFloat? = none → ∀ i, s.link.writesTo ≠ some i ∧ s.closes i = 0) := by
  have hs : s.Sound link := sound_of_run (fun o _ => script_within_of_all (fun _ => trivial) o.race) h
  have hspent : ∀ i, s.closes i + (if s.link.writesTo = some i then 1 else 0) ≤ fee link :=
    hs.spent_le
  have hone := fee_le_one link
  have hnone : link.connectTimeout.toFloat? = none →
      ∀ i, s.link.writesTo ≠ some i ∧ s.closes i = 0 := by
    intro hn i
    have hf : fee link = 0 := by simp [fee, hn]
    have := hspent i
    split at this
    · omega
    · rename_i hw
      exact ⟨hw, by omega⟩
  refine ⟨fun i => ?_, fun hr => ⟨fun hall => ?_, ?_⟩, hnone⟩
  · have := hspent i
    omega
  · by_cases hsize : s.network.connections.size = 0
    · exact .inr hsize
    · refine .inl (Option.isSome_iff_ne_none.mpr fun hn => ?_)
      obtain ⟨hw, hc⟩ := hnone hn 0
      rcases hall 0 (by omega) with ⟨hw', -⟩ | ⟨-, hc'⟩
      · exact hw hw'
      · omega
  · rintro (hsome | hsize) i hi
    · have hf : fee link = 1 := by simp [fee, hsome]
      have := hs.spent_of_idle hr hi
      rw [hf] at this
      unfold spent at this
      split at this
      · rename_i hw
        exact .inl ⟨hw, by omega⟩
      · rename_i hw
        exact .inr ⟨hw, by omega⟩
    · omega

theorem closed_once_of_disconnect :
    let s := (start {} {} .empty [⟨.opens, .int 0, .none, [], false, []⟩] none).after
      [.ask (.connect "127.0.0.1" (.int 27099)), .pass (.int 0), .ask (.disconnect false)]
    s.network.connections.size = 1 ∧ s.closes 0 = 1 := by
  intro s
  have hrun := run_of_steps (A := fun _ => True)
    (s := start {} {} .empty [⟨.opens, .int 0, .none, [], false, []⟩] none)
    [.ask (.connect "127.0.0.1" (.int 27099)), .pass (.int 0), .ask (.disconnect false)]
    (fun step _ => stepWithin_of_all (fun _ => trivial) step) (by decide +kernel)
  have hready : s.loop.ready = [] := List.eq_nil_of_length_eq_zero (by decide +kernel)
  have hsize : s.network.connections.size = 1 := by decide +kernel
  have hfree : s.link.writesTo ≠ some 0 := by decide +kernel
  have hall := ((closed_once_or_held_iff {} {} .empty _ none hrun).2.1 hready).mpr
    (.inl (by decide +kernel))
  rcases hall 0 (by rw [hsize]; omega) with ⟨hheld, -⟩ | ⟨-, hclosed⟩
  · exact absurd hheld hfree
  · exact ⟨hsize, hclosed⟩

end Session
end DiagnosticWatch
