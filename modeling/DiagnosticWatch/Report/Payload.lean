/-
# Reports on the wire

The body of a diagnostics frame holds a path, a count and as many entries: a
message, a line counted from 1, a column, an error flag and an information
flag. The column is not kept, since the server does not report columns yet.
Bytes after the last entry are ignored.

`Report.read` reads such a body. `Entry` and `Payload.encode` write one the
way the debug server does.

Key definitions: `Entry`, `Report.read`, `Payload.encode`.
-/
import DiagnosticWatch.Report.Basic
import DiagnosticWatch.Wire.Cursor

namespace DiagnosticWatch

/-- A diagnostic as it is on the wire. -/
structure Entry where
  message : String
  line : Int
  column : Int
  errorFlag : Int
  informationFlag : Int
deriving Repr, DecidableEq

namespace Entry

/-- What an entry means. -/
def diagnostic (e : Entry) : Diagnostic :=
  .atLine (.ofFlags (e.errorFlag != 0) (e.informationFlag != 0)) e.line e.message

/-- Reads one entry. -/
def read : Reader Entry := do
  let message ← Reader.text
  let line ← Reader.int32
  let column ← Reader.int32
  let errorFlag ← Reader.int32
  let informationFlag ← Reader.int32
  return ⟨message, line, column, errorFlag, informationFlag⟩

/-- Reads `n` entries after those already read, last entry first. -/
def readMany : (n : Nat) → (before : List Entry) → Reader (List Entry)
  | 0, before => return before.reverse
  | n + 1, before => do
    let entry ← read
    readMany n (entry :: before)

end Entry

namespace Report

/-- Reads the body of a diagnostics frame. -/
def reader : Reader Report := do
  let path ← Reader.text
  let count ← Reader.int32
  if count < 0 then throw (.negativeCount count path)
  let entries ← Entry.readMany count.toNat []
  return .of path (entries.map Entry.diagnostic)

/-- The report that the body of a diagnostics frame holds. -/
def read (payload : List UInt8) : Except WireError Report :=
  match reader payload with
  | .ok report _ => .ok report
  | .error e _ => .error e

end Report

namespace Payload

/-- A text on the wire: its bytes and a terminating zero, after their number. -/
def encodeText (text : String) : List UInt8 :=
  let bytes := Utf8.encode text.toList
  Int32Wire.encode (bytes.length + 1) ++ bytes ++ [0]

/-- An entry on the wire. -/
def encodeEntry (e : Entry) : List UInt8 :=
  encodeText e.message ++ Int32Wire.encode e.line ++ Int32Wire.encode e.column ++
    Int32Wire.encode e.errorFlag ++ Int32Wire.encode e.informationFlag

/-- The body of a diagnostics frame. -/
def encode (path : String) (entries : List Entry) : List UInt8 :=
  encodeText path ++ Int32Wire.encode entries.length ++ entries.flatMap encodeEntry

end Payload
end DiagnosticWatch
