/-
# Acts

An act changes a world and answers, or ends with a fault. What it changed
before the fault stays changed. A world is made of parts; `Holds` says that a
world has a part of some type, so that what concerns that part alone is
written once for every world that has it.

Key definitions: `Act`, `Act.rescue`, `Act.ensuring`, `Holds`, `log`.
-/
import DiagnosticWatch.Trace

namespace DiagnosticWatch

/-- What changes a world `σ` and answers, or ends with a fault. -/
abbrev Act (σ α : Type) := EStateM Fault σ α

namespace Act

variable {σ α : Type}

/-- Deals with the faults that `catches` accepts. -/
def rescue (catches : Fault → Bool) (act : Act σ α) (handle : Fault → Act σ α) : Act σ α :=
  fun w => match act w with
    | .ok a w => .ok a w
    | .error e w => if catches e then handle e w else .error e w

/-- Changes the world after an act, however it ends. -/
def ensuring (act : Act σ α) (last : σ → σ) : Act σ α :=
  fun w => match act w with
    | .ok a w => .ok a (last w)
    | .error e w => .error e (last w)

/-- An act's answer, with an ordinary fault as one. -/
def answered (act : Act σ Answer) : Act σ Answer :=
  act.rescue Fault.isOrdinary fun e => pure (.fault e)

end Act

/-- A world `σ` has a part of type `α`. -/
class Holds (α σ : Type) where
  /-- The part. -/
  part : σ → α
  /-- Changes the part. -/
  update : (α → α) → σ → σ
  /-- A changed part is what it was changed to. -/
  part_update : ∀ (f : α → α) (w : σ), part (update f w) = f (part w)

variable {σ : Type}

/-- Tells an event. -/
def tell [Holds Trace σ] (e : Event) : Act σ Unit :=
  modify (Holds.update (Trace.record e))

/-- The double that a number of seconds is. -/
def inSeconds (n : Number) : Act σ Float :=
  match n.toFloat? with
  | some seconds => pure seconds
  | none => throw .overflow

/-- Logs a record. -/
def log [Holds Trace σ] (level : Level) (text : String) : Act σ Unit :=
  tell (.log level text)

end DiagnosticWatch
