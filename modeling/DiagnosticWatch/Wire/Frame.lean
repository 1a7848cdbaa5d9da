/-
# Frames

A frame is a length prefix, a type byte and a body. The prefix is an integer
of four bytes, one less than the number of bytes that follow it, so a frame
without a body has the prefix 0. At least the type byte follows, and at most
`Frame.maxLength` bytes.

`Frame.next?` takes the first frame off a run of bytes, `Frame.decode` reads
bytes that are exactly one frame, and `Frame.encode` writes one.

Key definitions: `Frame`, `Frame.announced`, `Frame.next?`, `Frame.decode`,
`Frame.encode`.
-/
import DiagnosticWatch.Wire.Error
import DiagnosticWatch.Wire.Int32
import DiagnosticWatch.Wire.Kind

namespace DiagnosticWatch

/-- A type byte and the bytes that follow it. -/
structure Frame where
  code : UInt8
  body : List UInt8
deriving Repr, DecidableEq

/-- Why a frame cannot be written. -/
inductive EncodeError where
  /-- The body is too long. -/
  | length (length : Nat)
  /-- The type is no byte. -/
  | code (value : Int)
deriving Repr, DecidableEq

namespace Frame

/-- The largest accepted length, the type byte included. -/
def maxLength : Nat := WireError.lengthLimit

/-- The kind of a frame, if its type byte is in the catalog. -/
def kind? (frame : Frame) : Option Kind :=
  Kind.ofCode? frame.code.toNat

/-- How a frame is named in messages. -/
def describe (frame : Frame) : String :=
  let name := match frame.kind? with
    | some kind => kind.name
    | none => s!"UNKNOWN({frame.code})"
  s!"Frame({name}, {frame.body.length} bytes)"

/-- The number of bytes that follow a length prefix. -/
def announced (a b c d : UInt8) : Except WireError Nat :=
  let length := Int32Wire.decode a b c d + 1
  if 1 ≤ length ∧ length ≤ maxLength then .ok length.toNat
  else .error (.frameLength length)

/-- The number of bytes that follow a length prefix given as bytes. -/
def decodeLength : List UInt8 → Except WireError Nat
  | [a, b, c, d] => announced a b c d
  | bytes => .error (.prefixSize bytes.length)

/-- The first frame of `bytes` and what follows it; nothing if it is not there
as a whole. An unacceptable length is an error as soon as its prefix is there. -/
def next? : List UInt8 → Except WireError (Option (Frame × List UInt8))
  | a :: b :: c :: d :: rest =>
    match announced a b c d with
    | .error e => .error e
    | .ok length =>
      match rest.take length with
      | code :: body =>
        if body.length + 1 = length then .ok (some (⟨code, body⟩, rest.drop length))
        else .ok none
      | [] => .ok none
  | _ => .ok none

/-- The frame that the bytes are, all of them. -/
def decode (bytes : List UInt8) : Except WireError Frame :=
  match decodeLength (bytes.take 4) with
  | .error e => .error e
  | .ok length =>
    match bytes.drop 4 with
    | code :: body =>
      if body.length + 1 = length then .ok ⟨code, body⟩
      else .error (.frameBody length (body.length + 1))
    | [] => .error (.frameBody length 0)

/-- The bytes of a frame of type `code`. -/
def encode (code : Int) (body : List UInt8) : Except EncodeError (List UInt8) :=
  if maxLength < body.length + 1 then .error (.length (body.length + 1))
  else if 0 ≤ code ∧ code < 256 then
    .ok (Int32Wire.encode body.length ++ UInt8.ofNat code.toNat :: body)
  else .error (.code code)

/-- The bytes of a frame of a known kind and without a body. -/
def bare (kind : Kind) : List UInt8 :=
  [0, 0, 0, 0, UInt8.ofNat kind.code]

/-- A frame of a known kind and without a body can always be written. -/
theorem encode_bare (kind : Kind) : encode kind.code [] = .ok (bare kind) := by
  cases kind <;> rfl

end Frame

/-- The wording of an error. A type that is no signed 64-bit integer has a wording of
its own. -/
def EncodeError.message : EncodeError → String
  | .length n => WireError.message (.frameLength n)
  | .code value =>
    if -9223372036854775808 ≤ value ∧ value < 9223372036854775808 then
      "ubyte format requires 0 <= number <= 255"
    else "argument out of range"

end DiagnosticWatch
