/-
# The change signal

A signal tells its listeners that something stored has changed. Changes come
in bursts: the first one marks the signal, later ones of the burst change
nothing, and a poll fires it once `window` seconds have passed since the mark.
Firing clears the mark before the listeners run, so that what they change
marks anew.

`ChangeSignal.Alone` is a world that holds nothing but a signal and a clock.

Key definitions: `ChangeSignal`, `ChangeSignal.mark`, `ChangeSignal.reset`,
`ChangeSignal.isDue`, `ChangeSignal.fire`, `ChangeSignal.Alone.perform`.
-/
import DiagnosticWatch.Listener

namespace DiagnosticWatch

/-- A signal with its pending mark and its listeners. -/
structure ChangeSignal (ρ : Type) where
  /-- The seconds from a mark to the signal. -/
  window : Number
  /-- Whether a change is marked. -/
  dirty : Bool
  /-- When the change was marked. -/
  markedAt : Float
  listeners : List (Listener ρ)

namespace ChangeSignal

variable {σ ρ : Type}

/-- A signal without mark and listeners. -/
def quiet (window : Number) : ChangeSignal ρ := ⟨window, false, 0, []⟩

/-- Marks a change; nothing changes if one is marked. -/
def mark (now : Float) (s : ChangeSignal ρ) : ChangeSignal ρ :=
  if s.dirty then s else { s with dirty := true, markedAt := now }

/-- Forgets a marked change. -/
def reset (s : ChangeSignal ρ) : ChangeSignal ρ :=
  { s with dirty := false }

/-- Whether a change is marked and its time has come. -/
def isDue (now : Float) (s : ChangeSignal ρ) : Bool :=
  s.dirty && !s.window.above (now - s.markedAt)

/-- Fires: clears the mark and has `call` tell every listener. -/
def fire [Holds (ChangeSignal ρ) σ] [Holds Trace σ] (call : Listener ρ → Act σ Unit) :
    Act σ Unit := do
  modify (Holds.update (ChangeSignal.reset (ρ := ρ)))
  let signal : ChangeSignal ρ := Holds.part (← get)
  announce call "Diagnostics change listener failed" signal.listeners

/-- What can be asked of a signal on its own. -/
inductive Request where
  | subscribe (name : String) (script : Trace → List (Reaction Request))
  | resubscribe (name : String)
  | unsubscribe (name : String)
  | unsubscribeUnknown
  | mark
  | reset
  | poll
  | fire
  | advance (seconds : Number)

instance : Inhabited Request := ⟨.poll⟩

/-- The name of a request in a trace. -/
def Request.name : Request → String
  | .subscribe .. => "subscribe"
  | .resubscribe _ => "resubscribe"
  | .unsubscribe _ => "unsubscribe"
  | .unsubscribeUnknown => "unsubscribe_unknown"
  | .mark => "mark"
  | .reset => "reset"
  | .poll => "poll"
  | .fire => "fire"
  | .advance _ => "advance"

/-- A world that holds a signal, a clock and every listener made for the signal,
the latest first. -/
structure Alone where
  signal : ChangeSignal Request
  now : Float
  known : List (Listener Request)
  trace : Trace

instance : Holds (ChangeSignal Request) Alone where
  part := Alone.signal
  update f w := { w with signal := f w.signal }
  part_update _ _ := rfl

instance : Holds Trace Alone where
  part := Alone.trace
  update f w := { w with trace := f w.trace }
  part_update _ _ := rfl

namespace Alone

/-- A quiet signal at the time 1000. -/
def start (window : Number) : Alone := ⟨.quiet window, 1000, [], .empty⟩

/-- Changes the signal. -/
def change (f : ChangeSignal Request → ChangeSignal Request) : Act Alone Unit :=
  modify (Holds.update f)

/-- Registers a listener. -/
def register (l : Listener Request) : Act Alone Unit := do
  change fun s => { s with listeners := s.listeners ++ [l] }
  tell (.registered l.serial)

/-- Tells a listener that something has changed; `ask` answers the requests that it makes. -/
def call (ask : Request → Act Alone Answer) (l : Listener Request) : Act Alone Unit := do
  tell (.invoked l.serial)
  tell (.change l.name none (← get).now)
  l.perform Request.name ask

/-- Fires the signal; `ask` answers the requests that listeners make. -/
def fireNow (ask : Request → Act Alone Answer) : Act Alone Unit := do
  tell (.signal [])
  fire (ρ := Request) (call ask)
  tell (.delivered (← get).signal.dirty)

/-- Answers a request; `ask` answers the requests that listeners make. -/
def answer (ask : Request → Act Alone Answer) : Request → Act Alone Answer
  | .subscribe name script => do
    let known := (← get).known
    let l : Listener Request := ⟨known.length, name, script, none⟩
    modify fun w => { w with known := l :: known }
    register l
    return .nothing
  | .resubscribe name => do
    match Listener.latest? (← get).known name with
    | some l => register l
    | none => pure ()
    return .nothing
  | .unsubscribe name => do
    match Listener.latest? (← get).known name with
    | some l =>
      change fun s => { s with listeners := Listener.remove l.serial s.listeners }
      tell (.removed l.serial)
    | none => pure ()
    return .nothing
  | .unsubscribeUnknown => return .nothing
  | .mark => do
    let now := (← get).now
    tell (.marked now)
    change (ChangeSignal.mark now)
    return .nothing
  | .reset => do
    tell .unmarked
    change ChangeSignal.reset
    return .nothing
  | .poll => do
    let w ← get
    let fires := w.signal.isDue w.now
    tell (.polled w.now fires)
    if fires then
      fireNow ask
      return .flag true
    else return .flag false
  | .fire => do
    fireNow ask
    return .nothing
  | .advance seconds => do
    let seconds ← inSeconds seconds
    modify fun w => { w with now := w.now + seconds }
    return .nothing

/-- Answers a request whose listeners nest requests at most `depth` deep. -/
def perform : (depth : Nat) → Request → Act Alone Answer
  | 0, _ => throw .tooDeep
  | depth + 1, request => answer (perform depth) request

end Alone
end ChangeSignal
end DiagnosticWatch
