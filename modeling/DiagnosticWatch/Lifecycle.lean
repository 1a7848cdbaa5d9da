/-
# The lifecycle of a connection

A lifecycle is the phase that a connection is in and the listeners that are
told of each step. A step that the graph of phases lacks is refused and
changes nothing. On a step the phase changes first; the listeners run in the
new phase and may ask for more steps.

`Lifecycle.Alone` is a world that holds nothing but a lifecycle.

Key definitions: `Lifecycle`, `Lifecycle.transition`, `Lifecycle.Request`,
`Lifecycle.Alone.perform`.
-/
import DiagnosticWatch.Listener

namespace DiagnosticWatch

/-- A phase and the listeners for steps between phases. -/
structure Lifecycle (ρ : Type) where
  phase : Phase
  listeners : List (Listener ρ)

namespace Lifecycle

variable {σ ρ : Type}

/-- Goes to the phase `target` and has `call` tell every listener. -/
def transition [Holds (Lifecycle ρ) σ] [Holds Trace σ]
    (call : Listener ρ → Phase → Phase → Act σ Unit) (target : Phase) : Act σ Unit := do
  let life : Lifecycle ρ := Holds.part (← get)
  let source := life.phase
  if source.canBecome target then
    modify (Holds.update fun (l : Lifecycle ρ) => { l with phase := target })
    tell (.moved source target)
    announce (fun l => call l source target)
      s!"State listener failed on {source.name} -> {target.name}" life.listeners
  else
    tell (.refused source target)
    throw (.badTransition source target)

/-- What can be asked of a lifecycle on its own. -/
inductive Request where
  | transition (target : Phase)
  | canBecome (target : Phase)
  | describe
  | represent
  | listen (name : String) (script : Trace → List (Reaction Request))
  | remove (name : String)

instance : Inhabited Request := ⟨.describe⟩

/-- The name of a request in a trace. -/
def Request.name : Request → String
  | .transition _ => "transition"
  | .canBecome _ => "can"
  | .describe => "str"
  | .represent => "repr"
  | .listen .. => "listen"
  | .remove _ => "remove"

/-- A world that holds a lifecycle and every listener made for it, the latest
first. -/
structure Alone where
  life : Lifecycle Request
  known : List (Listener Request)
  trace : Trace

instance : Holds (Lifecycle Request) Alone where
  part := Alone.life
  update f w := { w with life := f w.life }
  part_update _ _ := rfl

instance : Holds Trace Alone where
  part := Alone.trace
  update f w := { w with trace := f w.trace }
  part_update _ _ := rfl

namespace Alone

/-- A lifecycle in some phase, without listeners. -/
def start (phase : Phase) : Alone := ⟨⟨phase, []⟩, [], .empty⟩

/-- Tells a listener of a step; `ask` answers the requests that it makes. -/
def call (ask : Request → Act Alone Answer) (l : Listener Request) (old new : Phase) :
    Act Alone Unit := do
  tell (.called l.serial old new)
  tell (.state l.name old new)
  (l.perform Request.name ask).ensuring (Holds.update (Trace.record (.returned l.serial)))

/-- Answers a request; `ask` answers the requests that listeners make. -/
def answer (ask : Request → Act Alone Answer) : Request → Act Alone Answer
  | .transition target => do
    transition (ρ := Request) (call ask) target
    tell .announced
    return .nothing
  | .canBecome target => return .flag ((← get).life.phase.canBecome target)
  | .describe => return .text s!"ConnectionStateMachine({(← get).life.phase.name})"
  | .represent => do
    let phase := (← get).life.phase
    let state := s!"<ConnectionState.{phase.name}: {phase.number}>"
    return .text s!"ConnectionStateMachine(state={state})"
  | .listen name script => do
    let known := (← get).known
    let l : Listener Request := ⟨known.length, name, script, none⟩
    modify fun w => { w with
      known := l :: known
      life := { w.life with listeners := w.life.listeners ++ [l] } }
    tell (.registered l.serial)
    return .nothing
  | .remove name => do
    match Listener.latest? (← get).known name with
    | some l =>
      modify fun w => { w with
        life := { w.life with listeners := Listener.remove l.serial w.life.listeners } }
      tell (.removed l.serial)
    | none => pure ()
    return .nothing

/-- Answers a request whose listeners nest requests at most `depth` deep. -/
def perform : (depth : Nat) → Request → Act Alone Answer
  | 0, _ => throw .tooDeep
  | depth + 1, request => answer (perform depth) request

end Alone
end Lifecycle
end DiagnosticWatch
