/-
# Dials and attempts

How a dial waits for its attempt. The dial, the shield and the attempt learn
of each other only through jobs, so that between the end of an attempt and its
dial's learning of it other jobs may run, and in particular the dial may be
cancelled. A task that waits is cancelled by waking it; one that does not wait
is marked, and is cancelled when it runs next. An attempt need not end when it
is cancelled: a stubborn one waits for the network once more.

Key definitions: `Session.startDial`, `Session.cancelDial`,
`Session.abandonAttempt`, `Session.awaitNetwork`, `Session.beginAttempt`,
`Session.resumeAttempt`, `Session.attemptEnded`.
-/
import DiagnosticWatch.Session.Basic

namespace DiagnosticWatch
namespace Session

/-- The dial of a number. -/
def dial? (s : Session) (d : Nat) : Option Dial :=
  s.network.dials[d]?

/-- Makes a dial, ready to run. -/
def startDial (host : String) (port : Number) : Act Session Nat := do
  let d := (← get).network.dials.size
  onNetwork fun n => { n with dials := n.dials.push (.fresh host port) }
  enqueue (.beginDial d)
  return d

/-- Cancels a dial. -/
def cancelDial (d : Nat) : Act Session Unit := do
  match (← get).dial? d with
  | none => pure ()
  | some dial =>
    match dial.stage, dial.wake with
    | .ended, _ => pure ()
    | .waiting, .waiting | .settling _, .waiting =>
      onDial d fun dial => { dial with wake := .cancelled }
      enqueue (.resumeDial d)
    | _, _ => onDial d fun dial => { dial with cancelAsked := true }

/-- Wakes a dial that waits. -/
def wakeDial (d : Nat) : Act Session Unit := do
  match (← get).dial? d with
  | some dial =>
    if dial.wake = .waiting then
      onDial d fun dial => { dial with wake := .released }
      enqueue (.resumeDial d)
  | none => pure ()

/-- Wakes a dial that waits for its shield, because the shield is done or time has
run out. -/
def releaseDial (d : Nat) : Act Session Unit := do
  match (← get).dial? d with
  | some dial => if dial.stage = .waiting then wakeDial d
  | none => pure ()

/-- Wakes a dial that waits for the shield it has cancelled. -/
def settleDial (d : Nat) : Act Session Unit := do
  match (← get).dial? d with
  | some ⟨_, _, .settling _, _, _, _, _⟩ => wakeDial d
  | _ => pure ()

/-- Cancels an attempt. -/
def cancelAttempt (d : Nat) : Act Session Unit := do
  match (← get).dial? d with
  | none => pure ()
  | some dial =>
    match dial.attempt.stage, dial.attempt.wake with
    | .absent, _ | .ended _, _ => pure ()
    | .waiting, .waiting =>
      onAttempt d fun a => { a with wake := .cancelled }
      enqueue (.resumeAttempt d)
    | _, _ => onAttempt d fun a => { a with cancelAsked := true }

/-- Gives an attempt up: cancels it, and has what it opened or still opens closed. -/
def abandonAttempt (d : Nat) : Act Session Unit := do
  match (← get).dial? d with
  | none => pure ()
  | some dial =>
    match dial.attempt.stage with
    | .ended _ => enqueue (.closeOpened d)
    | _ =>
      onAttempt d fun a => { a with abandoned := true }
      cancelAttempt d

/-- Closes what an attempt has opened. -/
def closeOpened (d : Nat) : Act Session Unit := do
  match (← get).dial? d with
  | some dial =>
    match dial.attempt.stage with
    | .ended (.opened i) => close i
    | _ => pure ()
  | none => pure ()

/-- Ends an attempt, and has whoever waits for it told. -/
def endAttempt (d : Nat) (result : Result) : Act Session Unit := do
  match (← get).dial? d with
  | none => pure ()
  | some dial =>
    onAttempt d fun a => { a with stage := .ended result }
    if dial.attempt.shielded then enqueue (.attemptEnded d)
    if dial.attempt.abandoned then enqueue (.closeOpened d)

/-- Opens a connection, on which the peer may send at once. -/
def openConnection (outcome : Outcome) : Act Session Nat := do
  let i := (← get).network.connections.size
  let receiver := Receiver.detached.attach.receive outcome.data
  onNetwork fun n => { n with connections := n.connections.push ⟨receiver, false, none⟩ }
  (Receiver.attachEvents outcome.socket).forM tell
  tell (.opened i)
  return i

/-- Has a script performed before the dial learns of the end of its attempt. -/
def enqueueRace (script : List (Reaction Request)) : Act Session Unit :=
  if script.isEmpty then pure () else enqueue (.race script)

/-- The network gets to an attempt that was not cancelled. -/
def completeAttempt (d : Nat) (outcome : Outcome) : Act Session Unit := do
  match outcome.ending with
  | .opens =>
    let i ← openConnection outcome
    enqueueRace outcome.race
    endAttempt d (.opened i)
  | .fails unexpected =>
    enqueueRace outcome.race
    endAttempt d (.failed unexpected)
  | .hangs => pure ()

/-- Has an attempt wait for the network, which gets to it after a while. One that cannot be
timed fails. -/
def awaitNetwork (d : Nat) (outcome : Outcome) : Act Session Unit := do
  onAttempt d fun a => { a with stage := .waiting, wake := .waiting, cancelAsked := false, outcome }
  if outcome.ending = .hangs then pure ()
  else if outcome.delay.exceeds 0 then
    (arm outcome.delay (.attempt d)).rescue Fault.isOrdinary fun _ => endAttempt d (.failed true)
  else completeAttempt d outcome

/-- Runs an attempt for the first time. One cancelled before never reaches the network. -/
def beginAttempt (d : Nat) : Act Session Unit := do
  match (← get).dial? d with
  | none => pure ()
  | some dial =>
    if dial.attempt.cancelAsked then endAttempt d .cancelled
    else
      let now := (← get).loop.now
      tell (.attempt dial.host dial.port now)
      let outcome := (← get).network.outcomes.headD .refusal
      onNetwork fun n => { n with outcomes := n.outcomes.tail }
      awaitNetwork d outcome

/-- Wakes an attempt that waits, because its time has come. -/
def wakeAttempt (d : Nat) : Act Session Unit := do
  match (← get).dial? d with
  | some dial =>
    if dial.attempt.wake = .waiting then
      onAttempt d fun a => { a with wake := .released }
      enqueue (.resumeAttempt d)
  | none => pure ()

/-- Runs an attempt that has waited. A cancelled one ends, unless it is stubborn and goes on. -/
def resumeAttempt (d : Nat) : Act Session Unit := do
  match (← get).dial? d with
  | none => pure ()
  | some dial =>
    let attempt := dial.attempt
    if attempt.wake = .cancelled ∨ attempt.cancelAsked then
      disarm (.attempt d)
      onNetwork fun n => { n with cancelled := n.cancelled + 1 }
      match attempt.outcome.stubborn with
      | .yields => endAttempt d .cancelled
      | .goesOn ending delay => awaitNetwork d (attempt.outcome.defying ending delay)
    else completeAttempt d attempt.outcome

/-- The shield of a dial learns that the attempt has ended, unless it has been
cancelled. -/
def attemptEnded (d : Nat) : Act Session Unit := do
  match (← get).dial? d with
  | some dial =>
    match dial.shield, dial.attempt.stage with
    | .waiting, .ended result =>
      let shield := if result = .cancelled then .cancelled else .resolved result
      onDial d fun dial => { dial with shield }
      enqueue (.shieldDone d)
      enqueue (.releaseDial d)
    | _, _ => pure ()
  | none => pure ()

/-- The shield lets go of an attempt that has not ended. -/
def shieldDone (d : Nat) : Act Session Unit := do
  match (← get).dial? d with
  | some dial =>
    match dial.attempt.stage with
    | .ended _ => pure ()
    | _ => onAttempt d fun a => { a with shielded := false }
  | none => pure ()

end Session
end DiagnosticWatch
