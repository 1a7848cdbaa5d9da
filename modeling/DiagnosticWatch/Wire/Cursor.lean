/-
# Reading a payload

A payload is read from front to back. A reader consumes what it reads even if
a later part of the same read fails: a text whose bytes are missing has
consumed its count.

Key definitions: `Reader`, `Reader.take`, `Reader.int32`, `Reader.flag`,
`Reader.text`.
-/
import DiagnosticWatch.Text.Utf8
import DiagnosticWatch.Wire.Error
import DiagnosticWatch.Wire.Int32

namespace DiagnosticWatch

/-- Reads from the bytes not yet consumed, and leaves the rest. -/
abbrev Reader (α : Type) := EStateM WireError (List UInt8) α

namespace Reader

/-- The next `wanted` bytes. -/
def take (wanted : Nat) : Reader (List UInt8) := fun bytes =>
  let taken := bytes.take wanted
  if taken.length = wanted then .ok taken (bytes.drop wanted)
  else .error (.truncated wanted bytes.length) bytes

/-- The next four bytes as an integer. -/
def int32 : Reader Int := fun bytes =>
  match bytes with
  | a :: b :: c :: d :: rest => .ok (Int32Wire.decode a b c d) rest
  | short => .error (.truncated 4 short.length) short

/-- The next integer as a truth value: any other than zero is true. -/
def flag : Reader Bool := do
  return (← int32) != 0

/-- The next text: a count and as many bytes, the last of which ends the text
and is dropped. -/
def text : Reader String := do
  let count ← int32
  if count < 0 then throw (.negativeText count)
  let bytes ← take count.toNat
  return String.ofList (Utf8.decode bytes).dropLast

end Reader
end DiagnosticWatch
