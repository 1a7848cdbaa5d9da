/-
# Phases of a connection

A connection is being made, is up, or is neither. It only walks the graph

    disconnected → connecting → connected
         ↑              |            |
         +--------------+------------+

Key definitions: `Phase`, `Phase.canBecome`.
-/

namespace DiagnosticWatch

/-- How far a connection is. -/
inductive Phase where
  | disconnected
  | connecting
  | connected
deriving Repr, DecidableEq, Inhabited

namespace Phase

/-- The name of a phase. -/
def name : Phase → String
  | .disconnected => "DISCONNECTED"
  | .connecting => "CONNECTING"
  | .connected => "CONNECTED"

/-- The phase of a name. -/
def ofName? (name : String) : Option Phase :=
  [disconnected, connecting, connected].find? (·.name = name)

/-- The number of a phase, from 1. -/
def number : Phase → Nat
  | .disconnected => 1
  | .connecting => 2
  | .connected => 3

/-- Whether a connection may go from one phase to the other at once. -/
def canBecome : Phase → Phase → Bool
  | .disconnected, .connecting => true
  | .connecting, .connected => true
  | .connecting, .disconnected => true
  | .connected, .disconnected => true
  | _, _ => false

end Phase
end DiagnosticWatch
