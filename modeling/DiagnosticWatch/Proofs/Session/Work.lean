/-
# The work of a session

Whatever is asked of a session, what happens to it in between is a sequence of
few kinds of changes: `Change` lists them, each with what is known when it
happens. Three things take several changes, of which `Part` lists those that
happen nowhere else. The link says something on its connection, in one of the
phrases there are. It drops the connection: after some last words it leaves
it, then the state listeners run, and only then are the reports forgotten. And
it connects: the state listeners run between the step to another phase and the
making of the dial. So `Work` is a sequence of changes in which every leaving
is matched by a forgetting, and every setting out by a dial.

What the theorems about sessions do not look at may change freely: `Alike`
says what stays.

Requests bring scripts with more requests. `Request.Within A` says that a
request and all that its scripts hold are of the kind `A`, and `Scripted A`
that all scripts in a session are. A session is `Fit` for work if besides it
has a connection exactly when it is connected.

Key definitions: `Request.Within`, `Session.Scripted`, `Session.Fit`,
`Session.Alike`, `Session.Change`, `Session.Tells`, `Session.Work`.
Key theorems: `Session.Work.trans`, `Session.Work.keeps`, `Session.Fit.work`.
-/
import DiagnosticWatch.Proofs.Session.Dial
import DiagnosticWatch.Proofs.Session.Phrases

namespace DiagnosticWatch

/-- What a request has a listener do when that is called. -/
def Request.script : Request → Trace → List (Reaction Request)
  | .subscribe _ script | .onState _ script _ => script
  | _ => fun _ => []

/-- The request, the requests of its scripts, those of their scripts and so on are of
the kind `A`, whatever has been told when they are performed. -/
inductive Request.Within (A : Request → Prop) : Request → Prop
  | intro {request : Request} (self : A request)
      (script : ∀ trace q, .ask q ∈ request.script trace → Within A q) : Within A request

/-- All requests of the script are within `A`. -/
def Script.Within (A : Request → Prop) (script : List (Reaction Request)) : Prop :=
  ∀ q, .ask q ∈ script → Request.Within A q

/-- All requests that the listener may make are within `A`, whatever has been told. -/
def Listener.Within (A : Request → Prop) (l : Listener Request) : Prop :=
  ∀ trace, Script.Within A (l.script trace)

theorem Request.Within.script_within {A : Request → Prop} {request : Request}
    (h : request.Within A) (trace : Trace) : Script.Within A (request.script trace) := by
  obtain ⟨-, script⟩ := h
  exact script trace

/-- A request that registers nobody. -/
theorem Request.within_plain {A : Request → Prop} {request : Request} (self : A request)
    (h : request.script = fun _ => []) : request.Within A :=
  ⟨self, fun _ q hq => by rw [h] at hq; cases hq⟩

theorem Script.within_nil (A : Request → Prop) : Script.Within A [] := nofun

/-- Whether a job is anything but a run of the ticker. -/
def Job.isTask : Job → Bool
  | .ticker => false
  | _ => true

/-- Whether an event is the closing of connection `i`. -/
def Event.closes (i : Nat) : Event → Bool
  | .close j => j = i
  | _ => false

/-- What is stored when a change signal begins. -/
def Event.signal? : Event → Option (List Report)
  | .signal stored => some stored
  | _ => none

/-- A step between phases. -/
def Event.move? : Event → Option (Phase × Phase)
  | .moved old new => some (old, new)
  | _ => none

/-- Whether an event is a word on a connection: part of a phrase or of last words. -/
def Event.isWord : Event → Bool
  | .write .. | .asked .. | .looked .. | .handled .. | .unsent .. => true
  | _ => false

/-- Whether an event is neither a word, nor a closing, nor a signal, nor a step between
phases. -/
def Event.isPlain : Event → Bool
  | .close _ | .signal _ | .moved .. => false
  | e => !e.isWord

/-- A mark leaves the listeners alone. -/
theorem ChangeSignal.mark_listeners {ρ : Type} (now : Float) (signal : ChangeSignal ρ) :
    (signal.mark now).listeners = signal.listeners := by
  unfold mark
  split <;> rfl

/-- A mark is there when it has been made. -/
theorem ChangeSignal.mark_dirty {ρ : Type} (now : Float) (signal : ChangeSignal ρ) :
    (signal.mark now).dirty = true := by
  unfold mark
  split
  · assumption
  · rfl

namespace Session

/-- What happened so far but for plain events, the latest first. -/
def told (s : Session) : List Event :=
  s.trace.latestFirst.filter (!·.isPlain)

/-- How often connection `i` was closed from this side. -/
def closes (s : Session) (i : Nat) : Nat :=
  s.trace.latestFirst.countP (Event.closes i)

/-- What was stored when the latest change signal began; nothing before the first. -/
def lastSignal (s : Session) : List Report :=
  (s.trace.latestFirst.findSome? Event.signal?).getD []

/-- The steps between phases so far, the latest first. -/
def moves (s : Session) : List (Phase × Phase) :=
  s.trace.latestFirst.filterMap Event.move?

/-- What is ready apart from the ticker. -/
def tasks (s : Session) : List Job :=
  s.loop.ready.filter Job.isTask

/-- The timers apart from the ticker's. -/
def alarms (s : Session) : List Timer :=
  s.loop.timers.filter (·.alarm ≠ .ticker)

/-- The two sessions differ only in what the theorems do not look at: the pacer, the
time, what a connection has received and how it takes writes, the time of the last
traffic, and plain events. -/
structure Alike (s t : Session) : Prop where
  settings : t.link.settings = s.link.settings
  life : t.link.life = s.link.life
  dirty : t.link.signal.dirty = s.link.signal.dirty
  listeners : t.link.signal.listeners = s.link.signal.listeners
  store : t.link.store = s.link.store
  writesTo : t.link.writesTo = s.link.writesTo
  readsFrom : t.link.readsFrom = s.link.readsFrom
  dial : t.link.dial = s.link.dial
  outcomes : t.network.outcomes = s.network.outcomes
  dials : t.network.dials = s.network.dials
  connections : t.network.connections.size = s.network.connections.size
  tasks : t.tasks = s.tasks
  alarms : t.alarms = s.alarms
  told : t.told = s.told

variable {s t u v : Session}

theorem closes_eq_told (s : Session) (i : Nat) : s.closes i = s.told.countP (Event.closes i) := by
  unfold closes told
  rw [List.countP_filter]
  refine List.countP_congr fun e _ => ?_
  cases e <;> simp [Event.closes, Event.isPlain, Event.isWord]

theorem lastSignal_eq_told (s : Session) :
    s.lastSignal = (s.told.findSome? Event.signal?).getD [] := by
  unfold lastSignal told
  rw [← List.head?_filterMap, ← List.head?_filterMap, List.filterMap_filter]
  congr 3
  funext e
  cases e <;> rfl

theorem moves_eq_told (s : Session) : s.moves = s.told.filterMap Event.move? := by
  unfold moves told
  rw [List.filterMap_filter]
  congr 1
  funext e
  cases e <;> rfl

theorem Alike.refl (s : Session) : Alike s s := by
  constructor <;> rfl

theorem Alike.trans (h : Alike s t) (h' : Alike t u) : Alike s u where
  settings := h'.settings.trans h.settings
  life := h'.life.trans h.life
  dirty := h'.dirty.trans h.dirty
  listeners := h'.listeners.trans h.listeners
  store := h'.store.trans h.store
  writesTo := h'.writesTo.trans h.writesTo
  readsFrom := h'.readsFrom.trans h.readsFrom
  dial := h'.dial.trans h.dial
  outcomes := h'.outcomes.trans h.outcomes
  dials := h'.dials.trans h.dials
  connections := h'.connections.trans h.connections
  tasks := h'.tasks.trans h.tasks
  alarms := h'.alarms.trans h.alarms
  told := h'.told.trans h.told

theorem Alike.closes (h : Alike s t) (i : Nat) : t.closes i = s.closes i := by
  rw [closes_eq_told, h.told, ← closes_eq_told]

theorem Alike.lastSignal (h : Alike s t) : t.lastSignal = s.lastSignal := by
  rw [lastSignal_eq_told, h.told, ← lastSignal_eq_told]

theorem Alike.moves (h : Alike s t) : t.moves = s.moves := by
  rw [moves_eq_told, h.told, ← moves_eq_told]

theorem Alike.phase (h : Alike s t) : t.phase = s.phase :=
  congrArg Lifecycle.phase h.life

theorem alike_record (s : Session) {e : Event} (h : e.isPlain = true) :
    Alike s { s with trace := s.trace.record e } :=
  { Alike.refl s with told := by simp [Session.told, Trace.record, h] }

theorem alike_pacer (s : Session) (pacer : Pacer) : Alike s { s with pacer } := by
  constructor <;> rfl

theorem alike_traffic (s : Session) (lastTraffic : Float) :
    Alike s { s with link := { s.link with lastTraffic } } := by
  constructor <;> rfl

/-- Of the connections only their number matters. -/
theorem alike_connections (s : Session) {connections : Array Connection}
    (h : connections.size = s.network.connections.size) :
    Alike s { s with network := { s.network with connections } } :=
  { Alike.refl s with connections := h }

/-- Of the loop only the jobs and the timers of others than the ticker matter. -/
theorem alike_loop (s : Session) {loop : Loop} (hr : loop.ready.filter Job.isTask = s.tasks)
    (ht : loop.timers.filter (·.alarm ≠ .ticker) = s.alarms) : Alike s { s with loop } :=
  { Alike.refl s with tasks := hr, alarms := ht }

/-! ### The changes -/

/-- An event is told. -/
def telling (e : Event) (s : Session) : Session :=
  { s with trace := s.trace.record e }

/-- The step to a phase, before the listeners run. -/
def movedTo (target : Phase) (s : Session) : Session where
  link := { s.link with life := { s.link.life with phase := target } }
  pacer := s.pacer
  loop := s.loop
  network := s.network
  known := s.known
  trace := s.trace.record (.moved s.phase target)

/-- The begin of a change signal, before the listeners run. -/
def signalled (s : Session) : Session :=
  { s with
    link := { s.link with signal := s.link.signal.reset }
    trace := s.trace.record (.signal s.link.store.reports) }

/-- The connection that was written to is closed. -/
def closedHeld (s : Session) : Session :=
  match s.link.writesTo with
  | some i => s.closed i
  | none => s

/-- The link closes its connection and lets go of it. -/
def parted (s : Session) : Session :=
  let s := s.closedHeld
  { s with link := { s.link with writesTo := none, readsFrom := none } }

/-- The link leaves its connection, before the state listeners run. -/
def left (s : Session) : Session :=
  if s.phase ≠ .disconnected then s.parted.movedTo .disconnected else s.parted

/-- All reports and a marked change are forgotten, and signalled if there were any,
before the change listeners run. -/
def forgotten (s : Session) : Session :=
  let signal := s.link.signal.reset
  if s.link.store.isEmpty then { s with link := { s.link with signal } }
  else { s with
    link := { s.link with signal, store := .empty }
    trace := s.trace.record (.signal []) }

/-- A dial has been made, is ready to run and is the one under way. -/
def dialling (host : String) (port : Number) (s : Session) : Session :=
  { s with
    link := { s.link with dial := some s.network.dials.size }
    network := { s.network with dials := s.network.dials.push (.fresh host port) }
    loop := { s.loop with ready := s.loop.ready ++ [.beginDial s.network.dials.size] } }

/-- The listeners are other ones. -/
def listening (known : List (Listener Request)) (life signal : List (Listener Request))
    (s : Session) : Session :=
  { s with
    known
    link := { s.link with
      life := { s.link.life with listeners := life }
      signal := { s.link.signal with listeners := signal } } }

/-- A report is put into the store. -/
def stored (report : Report) (s : Session) : Session :=
  { s with link := { s.link with store := s.link.store.put report } }

/-- A change is marked. -/
def marked (s : Session) : Session :=
  { s with link := { s.link with signal := s.link.signal.mark s.loop.now } }

/-- Listeners that are the session's own or have scripts within `A`. -/
def Admitted (A : Request → Prop) (own ls : List (Listener Request)) : Prop :=
  ∀ l ∈ ls, l ∈ own ∨ l.Within A

/-- What may happen to a session at once, in the middle of a call. -/
inductive Change (A : Request → Prop) : Session → Session → Prop
  | plain {s t : Session} (alike : Alike s t) : Change A s t
  | listen (s : Session) (known : List (Listener Request)) {life signal : List (Listener Request)}
      (hl : Admitted A s.link.life.listeners life)
      (hs : Admitted A s.link.signal.listeners signal) :
      Change A s (s.listening known life signal)
  /-- Somebody else puts a report into the store. -/
  | put (s : Session) (report : Report) (asked : ∃ path notes, A (.put path notes)) :
      Change A s (s.stored report)
  /-- Somebody else marks a change. -/
  | mark (s : Session) (asked : A .mark) : Change A s s.marked
  /-- A report is received. -/
  | report (s : Session) (report : Report) (reading : s.link.readsFrom ≠ none) :
      Change A s (s.stored report).marked
  /-- A change is signalled, because one is marked or because somebody else asks for it. -/
  | signal (s : Session) (cause : s.link.signal.dirty = true ∨ A .fire) : Change A s s.signalled

/-- What may happen to a session as a part of something else. -/
inductive Part : Session → Session → Prop
  | alike {s t : Session} (h : Alike s t) : Part s t
  | word (s : Session) {e : Event} (h : e.isWord = true) : Part s (s.telling e)
  /-- The dial under way is cancelled. -/
  | cancel {s t : Session} {d : Nat} (recorded : s.link.dial = some d)
      (h : cancelDial d s = .ok () t) : Part s t.dialless
  | setOut {s : Session} (h : s.phase = .disconnected) : Part s (s.movedTo .connecting)
  | dial {s : Session} (host : String) (port : Number) (h : s.phase ≠ .connected) :
      Part s (s.dialling host port)

/-- Words are told one after the other. The dial under way may be cancelled in between. -/
inductive Tells : Session → List Event → Session → Prop
  | refl (s : Session) : Tells s [] s
  | alike {s t u : Session} {words : List Event} (h : Alike s t) (rest : Tells t words u) :
      Tells s words u
  | word {s t : Session} {words : List Event} {e : Event} (h : e.isWord = true)
      (rest : Tells (s.telling e) words t) : Tells s (e :: words) t
  | cancel {s t u : Session} {d : Nat} {words : List Event} (recorded : s.link.dial = some d)
      (h : cancelDial d s = .ok () t) (rest : Tells t.dialless words u) : Tells s words u

/-- The words are last words on the connection of the link, if it has one. -/
def Parting (A : Request → Prop) (s : Session) (words : List Event) : Prop :=
  match s.link.writesTo with
  | some i => LastWords A i words
  | none => words = []

/-- What happens to a session in the course of a call. -/
inductive Work (A : Request → Prop) : Session → Session → Prop
  | refl (s : Session) : Work A s s
  | change {s t u : Session} (first : Change A s t) (rest : Work A t u) : Work A s u
  | speak {s t u : Session} {i : Nat} {words : List Event} (held : s.link.writesTo = some i)
      (phrase : Phrase A i words) (tells : Tells s words t) (rest : Work A t u) : Work A s u
  | drop {s t u v : Session} {words : List Event} (last : s.Parting A words)
      (tells : Tells s words t) (listeners : Work A t.left u) (rest : Work A u.forgotten v) :
      Work A s v
  | connect {s t u : Session} (host : String) (port : Number) (down : s.phase = .disconnected)
      (listeners : Work A (s.movedTo .connecting) t) (apart : t.phase ≠ .connected)
      (rest : Work A (t.dialling host port) u) : Work A s u

variable {A : Request → Prop} {words more : List Event}

theorem Tells.trans (h : Tells s words t) (h' : Tells t more u) : Tells s (words ++ more) u := by
  induction h with
  | refl => exact h'
  | alike h _ ih => exact .alike h (ih h')
  | word h _ ih => exact .word h (ih h')
  | cancel recorded h _ ih => exact .cancel recorded h (ih h')

theorem Tells.of_alike (h : Alike s t) : Tells s [] t :=
  .alike h (.refl t)

theorem Tells.of_word (s : Session) {e : Event} (h : e.isWord = true) : Tells s [e] (s.telling e) :=
  .word h (.refl _)

/-- What its parts keep, a telling keeps. -/
theorem Tells.keeps {P : Session → Prop} (hp : ∀ {s t}, Part s t → P s → P t)
    (h : Tells s words t) (hs : P s) : P t := by
  induction h with
  | refl => exact hs
  | alike h _ ih => exact ih (hp (.alike h) hs)
  | word h _ ih => exact ih (hp (.word _ h) hs)
  | cancel recorded h _ ih => exact ih (hp (.cancel recorded h) hs)

theorem Work.trans (h : Work A s t) (h' : Work A t u) : Work A s u := by
  induction h with
  | refl => exact h'
  | change first _ ih => exact .change first (ih h')
  | speak held phrase tells _ ih => exact .speak held phrase tells (ih h')
  | drop last tells listeners _ _ ih => exact .drop last tells listeners (ih h')
  | connect host port down listeners apart _ _ ih =>
    exact .connect host port down listeners apart (ih h')

theorem Work.of_change (h : Change A s t) : Work A s t :=
  .change h (.refl t)

theorem Work.of_alike (h : Alike s t) : Work A s t :=
  .of_change (.plain h)

/-- What every change, every part, every leaving and every forgetting keeps, the whole
work keeps. -/
theorem Work.keeps {P : Session → Prop} (hc : ∀ {s t}, Change A s t → P s → P t)
    (hp : ∀ {s t}, Part s t → P s → P t) (hl : ∀ {s}, P s → P s.left)
    (hf : ∀ {s}, P s → P s.forgotten) (h : Work A s t) (hs : P s) : P t := by
  induction h with
  | refl => exact hs
  | change first _ ih => exact ih (hc first hs)
  | speak _ _ tells _ ih => exact ih (tells.keeps hp hs)
  | drop _ tells _ _ ih ih' => exact ih' (hf (ih (hl (tells.keeps hp hs))))
  | connect host port down _ apart _ ih ih' =>
    exact ih' (hp (.dial host port apart) (ih (hp (.setOut down) hs)))

/-! ### Scripts -/

/-- Every script that may come to run in the session is within `A`. -/
structure Scripted (A : Request → Prop) (s : Session) : Prop where
  life : ∀ l ∈ s.link.life.listeners, l.Within A
  signal : ∀ l ∈ s.link.signal.listeners, l.Within A
  outcomes : ∀ o ∈ s.network.outcomes, Script.Within A o.race
  dials : ∀ d dial, s.dial? d = some dial → Script.Within A dial.attempt.outcome.race
  ready : ∀ script, .race script ∈ s.loop.ready → Script.Within A script

theorem mem_tasks {job : Job} (h : job.isTask = true) (s : Session) :
    job ∈ s.tasks ↔ job ∈ s.loop.ready := by
  simp [tasks, h]

theorem Alike.dial? (h : Alike s t) (d : Nat) : t.dial? d = s.dial? d := by
  unfold Session.dial?
  rw [h.dials]

theorem Scripted.alike (hs : s.Scripted A) (h : Alike s t) : t.Scripted A where
  life := by
    rw [h.life]
    exact hs.life
  signal := by
    rw [h.listeners]
    exact hs.signal
  outcomes := by
    rw [h.outcomes]
    exact hs.outcomes
  dials d dial hd := hs.dials d dial (h.dial? d ▸ hd)
  ready script hr := by
    rw [← mem_tasks rfl, h.tasks, mem_tasks rfl] at hr
    exact hs.ready script hr

/-- A revised dial brings no script but that of its attempt, and its jobs none. -/
theorem Scripted.revise {d : Nat} {old : Dial} (hs : s.Scripted A) (h : s.dial? d = some old)
    (new : Dial) (jobs : List Job) (hn : Script.Within A new.attempt.outcome.race)
    (hj : ∀ script, .race script ∉ jobs) : (s.revise d new jobs).Scripted A where
  life := hs.life
  signal := hs.signal
  outcomes := hs.outcomes
  dials d' dial hd := by
    rw [dial?_revise h] at hd
    split at hd
    · cases hd
      exact hn
    · exact hs.dials d' dial hd
  ready script hr := by
    rcases List.mem_append.mp hr with hr | hr
    · exact hs.ready script hr
    · exact absurd hr (hj script)

theorem Scripted.marked (hs : s.Scripted A) : s.marked.Scripted A := by
  refine { hs with signal := ?_ }
  show ∀ l ∈ (ChangeSignal.mark _ _).listeners, _
  rw [ChangeSignal.mark_listeners]
  exact hs.signal

theorem Scripted.change (hs : s.Scripted A) (h : Change A s t) : t.Scripted A := by
  cases h with
  | plain alike => exact hs.alike alike
  | listen known hl hs' =>
    exact { hs with
      life := fun l hm => (hl l hm).elim (hs.life l) id
      signal := fun l hm => (hs' l hm).elim (hs.signal l) id }
  | put | signal => exact { hs with }
  | mark => exact hs.marked
  | report => exact Scripted.marked { hs with }

/-- A new dial brings no script. -/
theorem Scripted.dialling (hs : s.Scripted A) (host : String) (port : Number) :
    (s.dialling host port).Scripted A := by
  refine { hs with dials := ?_, ready := ?_ }
  · intro d dial hd
    unfold Session.dial? Session.dialling at hd
    rw [Array.getElem?_push] at hd
    split at hd
    · cases hd
      exact Script.within_nil A
    · exact hs.dials d dial hd
  · intro script hr
    rcases List.mem_append.mp hr with hr | hr
    · exact hs.ready script hr
    · simp at hr

theorem Scripted.part (hs : s.Scripted A) (h : Part s t) : t.Scripted A := by
  cases h with
  | alike h => exact hs.alike h
  | word | setOut => exact { hs with }
  | @cancel _ d _ h =>
    obtain ⟨t, ht, hr⟩ := cancelDial_ok d s
    cases ht.symm.trans h
    rcases hr with rfl | ⟨dial, wake, asked, jobs, hd, hj, rfl⟩
    · exact { hs with }
    · have hr := hs.revise hd { dial with wake, cancelAsked := asked } jobs (hs.dials _ dial hd)
        fun script hm => nomatch hj _ hm
      exact { hr with }
  | dial host port => exact hs.dialling host port

theorem Scripted.left (hs : s.Scripted A) : s.left.Scripted A := by
  unfold Session.left parted closedHeld
  split <;> split <;> exact { hs with }

theorem Scripted.forgotten (hs : s.Scripted A) : s.forgotten.Scripted A := by
  unfold Session.forgotten
  split <;> exact { hs with }

/-! ### Sessions fit for work -/

/-- The link has a connection if it is connected, and only then. -/
def Held (s : Session) : Prop :=
  (s.phase ≠ .connected → s.link.writesTo = none ∧ s.link.readsFrom = none) ∧
  (s.phase = .connected → ∃ i, s.link.writesTo = some i ∧ s.link.readsFrom = some i)

theorem Held.congr (hs : s.Held) (hp : t.phase = s.phase)
    (hw : t.link.writesTo = s.link.writesTo) (hr : t.link.readsFrom = s.link.readsFrom) : t.Held := by
  unfold Held at hs ⊢
  rwa [hp, hw, hr]

theorem Held.congr_link (hs : s.Held) (h : t.link = s.link) : t.Held :=
  hs.congr (by rw [phase, h]; rfl) (by rw [h]) (by rw [h])

theorem Held.connected_iff (hs : s.Held) : s.phase = .connected ↔ s.link.writesTo ≠ none := by
  constructor
  · intro hp
    obtain ⟨i, hw, -⟩ := hs.2 hp
    rw [hw]
    nofun
  · exact fun hw => Decidable.byContradiction fun hp => hw (hs.1 hp).1

/-- What the link reads from is what it writes to. -/
theorem Held.reads_iff (hs : s.Held) (i : Nat) :
    s.link.readsFrom = some i ↔ s.link.writesTo = some i := by
  by_cases hp : s.phase = .connected
  · obtain ⟨j, hw, hr⟩ := hs.2 hp
    rw [hw, hr]
  · rw [(hs.1 hp).1, (hs.1 hp).2]

theorem Held.change (hs : s.Held) (h : Change A s t) : t.Held := by
  cases h with
  | plain alike => exact hs.congr alike.phase alike.writesTo alike.readsFrom
  | listen | put | mark | report | signal => exact hs

theorem Held.part (hs : s.Held) (h : Part s t) : t.Held := by
  cases h with
  | alike h => exact hs.congr h.phase h.writesTo h.readsFrom
  | word | dial => exact hs
  | @cancel u _ _ h =>
    have hu : u.Held := hs.congr_link (cancelDial_keeps h).1
    exact hu
  | setOut h => exact ⟨fun _ => hs.1 (by rw [h]; nofun), nofun⟩

theorem parted_life (s : Session) : s.parted.link.life = s.link.life := by
  unfold parted closedHeld
  split <;> rfl

theorem phase_left (s : Session) : s.left.phase = .disconnected := by
  have hp : s.parted.phase = s.phase := congrArg Lifecycle.phase (parted_life s)
  unfold left
  split
  · rfl
  · rw [hp]
    exact Decidable.not_not.mp ‹_›

/-- Nothing is held once the link has left. -/
theorem held_left (s : Session) : s.left.Held := by
  refine ⟨fun _ => ?_, fun hp => ?_⟩
  · unfold left parted
    split <;> exact ⟨rfl, rfl⟩
  · rw [phase_left] at hp
    cases hp

theorem phase_forgotten (s : Session) : s.forgotten.phase = s.phase := by
  unfold forgotten
  split <;> rfl

theorem Held.forgotten (hs : s.Held) : s.forgotten.Held := by
  unfold Session.forgotten
  split <;> exact hs

/-- All scripts in the session are within `A`, and it has a connection if it is
connected. -/
structure Fit (A : Request → Prop) (s : Session) : Prop where
  scripted : s.Scripted A
  held : s.Held

theorem Fit.congr_link (hs : s.Fit A) (h : t.link = s.link) (ht : t.Scripted A) : t.Fit A :=
  ⟨ht, hs.held.congr_link h⟩

theorem Fit.change (hs : s.Fit A) (h : Change A s t) : t.Fit A :=
  ⟨hs.scripted.change h, hs.held.change h⟩

theorem Fit.part (hs : s.Fit A) (h : Part s t) : t.Fit A :=
  ⟨hs.scripted.part h, hs.held.part h⟩

theorem Fit.left (hs : s.Fit A) : s.left.Fit A :=
  ⟨hs.scripted.left, held_left s⟩

theorem Fit.forgotten (hs : s.Fit A) : s.forgotten.Fit A :=
  ⟨hs.scripted.forgotten, hs.held.forgotten⟩

theorem Fit.tells (hs : s.Fit A) (h : Tells s words t) : t.Fit A :=
  h.keeps (P := Fit A) (fun hp hs => hs.part hp) hs

theorem Fit.work (hs : s.Fit A) (h : Work A s t) : t.Fit A :=
  h.keeps (P := Fit A) (fun hc hs => hs.change hc) (fun hp hs => hs.part hp) Fit.left Fit.forgotten hs

end Session
end DiagnosticWatch
