/-
# Listeners

A listener is called when something changes. What it does at a call is a
script: it makes requests of the kind `ρ`, one after the other, and may fail.
A request that ends with a fault does not end the script. A listener may have a
state of its own, so that the script depends on all that has been told by then,
its earlier calls and what they were answered among it.

Each registration of a listener is a call to come. A round of calls is made
with the listeners registered when it starts; one that fails is logged, and
the round goes on.

Key definitions: `Reaction`, `Listener`, `Listener.remove`, `Script.run`,
`Listener.perform`, `announce`.
-/
import DiagnosticWatch.Act

namespace DiagnosticWatch

/-- One thing that a listener does. -/
inductive Reaction (ρ : Type) where
  /-- It fails. -/
  | fail (text : String)
  /-- It makes a request. -/
  | ask (request : ρ)

/-- A listener. Two listeners are the same if their serial numbers are. -/
structure Listener (ρ : Type) where
  serial : Nat
  name : String
  /-- What it does when it is called, given what has been told by then. -/
  script : Trace → List (Reaction ρ)
  /-- The only new phase in which a state listener performs its script. -/
  only : Option Phase

variable {σ ρ : Type}

/-- A script by itself is performed at every call. -/
instance : Coe (List (Reaction ρ)) (Trace → List (Reaction ρ)) :=
  ⟨fun script _ => script⟩

namespace Listener

/-- Removes the first registration of a listener. -/
def remove (serial : Nat) (registered : List (Listener ρ)) : List (Listener ρ) :=
  registered.eraseP (·.serial = serial)

/-- The listener last made under a name; `known` lists all, the latest first. -/
def latest? (known : List (Listener ρ)) (name : String) : Option (Listener ρ) :=
  known.find? (·.name = name)

end Listener

/-- Performs a script. -/
def Script.run [Holds Trace σ] (name : ρ → String) (ask : ρ → Act σ Answer) :
    List (Reaction ρ) → Act σ Unit
  | [] => pure ()
  | .fail text :: _ => throw (.listener text)
  | .ask request :: script => do
    let answer ← (ask request).answered
    tell (.nested (name request) answer)
    Script.run name ask script

/-- Has a listener do what it does now. -/
def Listener.perform [Holds Trace σ] (name : ρ → String) (ask : ρ → Act σ Answer)
    (l : Listener ρ) : Act σ Unit := do
  let trace : Trace := Holds.part (← get)
  Script.run name ask (l.script trace)

/-- Calls listeners in order; a failure is logged as `complaint`. -/
def announce [Holds Trace σ] (call : Listener ρ → Act σ Unit) (complaint : String) :
    List (Listener ρ) → Act σ Unit
  | [] => pure ()
  | l :: ls => do
    (call l).rescue Fault.isOrdinary fun _ => log .error complaint
    announce call complaint ls

end DiagnosticWatch
