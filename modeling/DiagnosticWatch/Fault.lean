/-
# Faults

Why a request to the watcher may end without an answer. Each part of the
watcher says which faults it deals with; the others reach whoever asked. A
nesting of calls beyond the bound is not dealt with by anyone.

Key definitions: `Fault`, `Fault.message`, `Fault.isOrdinary`,
`Fault.isWriteFailure`.
-/
import DiagnosticWatch.Phase
import DiagnosticWatch.Report.Basic
import DiagnosticWatch.Wire.Frame

namespace DiagnosticWatch

/-- Why bytes could not be written to a connection. -/
inductive WriteFault where
  /-- The connection has no transport, or one that is closing. -/
  | closed
  /-- The peer reset the connection. -/
  | reset
  /-- The transport cannot write at the moment. -/
  | unable
  /-- The transport refused the bytes. -/
  | refused
deriving Repr, DecidableEq

/-- The wording of a write fault. -/
def WriteFault.message : WriteFault → String
  | .closed => "Debug server connection is closed"
  | .reset => "Connection reset by peer"
  | .unable => "unable to perform operation"
  | .refused => "bad write"

/-- Why a request ended without an answer. -/
inductive Fault where
  /-- Such a step between phases does not exist. -/
  | badTransition (source target : Phase)
  /-- A connect was asked for where no event loop runs. -/
  | noLoop
  /-- A frame could not be written down. -/
  | encode (e : EncodeError)
  /-- Bytes could not be written to the connection. -/
  | write (e : WriteFault)
  /-- A listener failed. -/
  | listener (text : String)
  /-- A name is no severity. -/
  | severity (name : String)
  /-- There is no ticker to cancel. -/
  | noTicker
  /-- A number of seconds is too large for a double. -/
  | overflow
  /-- Calls were nested beyond the bound. -/
  | tooDeep
deriving Repr, DecidableEq

namespace Fault

/-- The wording of a fault. -/
def message : Fault → String
  | .badTransition source target => s!"Invalid state transition: {source.name} -> {target.name}"
  | .noLoop => "no running event loop"
  | .encode e => e.message
  | .write e => e.message
  | .listener text => text
  | .severity name => Severity.refusal name
  | .noTicker => "'NoneType' object has no attribute 'cancel'"
  | .overflow => "int too large to convert to float"
  | .tooDeep => "calls nested too deep"

/-- Whether a fault can be dealt with at all. -/
def isOrdinary : Fault → Bool
  | .tooDeep => false
  | _ => true

/-- Whether a fault means that a connection is dying, as opposed to that it was
used wrongly. -/
def isWriteFailure : Fault → Bool
  | .write .refused => false
  | .write _ => true
  | _ => false

end Fault
end DiagnosticWatch
