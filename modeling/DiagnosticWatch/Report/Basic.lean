/-
# Reports

A report is what the debug server last said about one source file: its path
and its diagnostics. A diagnostic belongs to a whole line; the server numbers
lines from 1, a diagnostic from 0.

Key definitions: `Severity`, `Position`, `Diagnostic`, `Note`, `Report`.
-/
import DiagnosticWatch.Report.SourcePath
import DiagnosticWatch.Text.Quoted

namespace DiagnosticWatch

/-- How grave a diagnostic is. -/
inductive Severity where
  | information
  | warning
  | error
deriving Repr, DecidableEq

namespace Severity

/-- The severity that the server's two flags stand for: the information flag
wins. -/
def ofFlags (isError isInformation : Bool) : Severity :=
  if isInformation then .information else if isError then .error else .warning

/-- The name of a severity. -/
def name : Severity → String
  | .information => "information"
  | .warning => "warning"
  | .error => "error"

/-- The severity of a name. -/
def ofName? (name : String) : Option Severity :=
  [information, warning, error].find? (·.name = name)

/-- What is told of a name that no severity has. -/
def refusal (name : String) : String :=
  s!"{Quoted.quote name} is not a valid Severity"

end Severity

/-- A position in a source file: a line and a character in it, both counted from 0. -/
structure Position where
  line : Nat
  character : Nat
deriving Repr, DecidableEq

/-- A compiler message about one line of a source file, counted from 0. -/
structure Diagnostic where
  severity : Severity
  line : Nat
  message : String
deriving Repr, DecidableEq

namespace Diagnostic

/-- Where a whole-line diagnostic ends in its line: the server reports no
columns. -/
def endOfLine : Nat := 10000

/-- Where a diagnostic begins: with its line. -/
def start (d : Diagnostic) : Position :=
  ⟨d.line, 0⟩

/-- Where a diagnostic ends. -/
def finish (d : Diagnostic) : Position :=
  ⟨d.line, endOfLine⟩

/-- What every diagnostic names as its origin. -/
def source : String := "as"

/-- The diagnostic of a line counted from 1; a number below that means the first
line. -/
def atLine (severity : Severity) (line : Int) (message : String) : Diagnostic :=
  ⟨severity, (max line 1 - 1).toNat, message⟩

/-- Whether a diagnostic is an error. -/
def isError (d : Diagnostic) : Bool :=
  d.severity = .error

/-- A diagnostic as one line of text, with its line counted from 1. -/
def describe (d : Diagnostic) : String :=
  s!"{d.severity.name}:{d.line + 1}: {d.message}"

end Diagnostic

/-- A diagnostic as it is put down by hand: the name of its severity, a line counted
from 1 and the message. -/
structure Note where
  severity : String
  line : Int
  message : String
deriving Repr, DecidableEq

namespace Note

/-- The diagnostic that a note puts down, unless the name is no severity. -/
def diagnostic (n : Note) : Except String Diagnostic :=
  match Severity.ofName? n.severity with
  | some severity => .ok (.atLine severity n.line n.message)
  | none => .error n.severity

/-- The diagnostics of notes, or the first name that is no severity. -/
def diagnostics (notes : List Note) : Except String (List Diagnostic) :=
  notes.mapM diagnostic

end Note

/-- The diagnostics of one source file, in the order the server gave. -/
structure Report where
  path : SourcePath
  diagnostics : List Diagnostic
deriving Repr, DecidableEq

namespace Report

/-- The report on any spelling of a path. -/
def of (path : String) (diagnostics : List Diagnostic) : Report :=
  ⟨.ofString path, diagnostics⟩

/-- Whether the file compiled without any message. -/
def isClean (report : Report) : Bool :=
  report.diagnostics.isEmpty

/-- The number of diagnostics of a severity. -/
def count (report : Report) (severity : Severity) : Nat :=
  report.diagnostics.countP (·.severity = severity)

/-- The diagnostics of a line counted from 0. -/
def onLine (report : Report) (line : Int) : List Diagnostic :=
  report.diagnostics.filter fun d => (d.line : Int) = line

/-- A report as one line of text: the numbers of its diagnostics, gravest first,
without those that are zero. -/
def summary (report : Report) : String :=
  if report.isClean then s!"{report.path.text}: clean"
  else
    let counts := [Severity.error, .warning, .information].filterMap fun severity =>
      if report.count severity = 0 then none
      else some s!"{report.count severity} {severity.name}"
    s!"{report.path.text}: " ++ ", ".intercalate counts

end Report
end DiagnosticWatch
