/-
# What can be wrong with bytes on the wire

The causes for which a frame or a payload is refused, and their wording.

Key definitions: `WireError`, `WireError.message`.
-/
import DiagnosticWatch.Text.Quoted

namespace DiagnosticWatch

/-- Why bytes do not follow the wire format. -/
inductive WireError where
  /-- A length prefix was given as `found` bytes, not four. -/
  | prefixSize (found : Nat)
  /-- A frame length lies outside the accepted range. -/
  | frameLength (length : Int)
  /-- A frame announces `declared` bytes and `found` follow. -/
  | frameBody (declared found : Nat)
  /-- A read wanted more bytes than the payload has left. -/
  | truncated (wanted available : Nat)
  /-- The length of a text is negative. -/
  | negativeText (count : Int)
  /-- The number of diagnostics reported for `path` is negative. -/
  | negativeCount (count : Int) (path : String)
deriving Repr, DecidableEq

namespace WireError

/-- The largest accepted frame length, the type byte included. -/
def lengthLimit : Nat := 4194304

/-- The wording of an error. -/
def message : WireError → String
  | .prefixSize found => s!"Length prefix must be 4 bytes, got {found}"
  | .frameLength length => s!"Frame length {length} outside [1, {lengthLimit}]"
  | .frameBody declared found => s!"Frame declares {declared} bytes but carries {found}"
  | .truncated wanted available =>
    s!"Payload truncated: wanted {wanted} bytes, {available} available"
  | .negativeText count => s!"Negative string length {count}"
  | .negativeCount count path =>
    s!"Negative diagnostics count {count} for {Quoted.quote path}"

end WireError
end DiagnosticWatch
