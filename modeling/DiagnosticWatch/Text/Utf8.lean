/-
# UTF-8 with replacement of what is ill-formed

A decoder reads bytes one at a time. It waits for the continuation bytes that
the first byte of a sequence announces; a byte that cannot continue the
sequence ends it, and the part read so far becomes one replacement character.
So every maximal ill-formed part becomes one U+FFFD, and a byte that starts
nothing becomes one of its own.

Key definitions: `Utf8.Decoder`, `Utf8.Decoder.push`, `Utf8.decode`.
-/

namespace DiagnosticWatch
namespace Utf8

/-- What stands for an ill-formed part. -/
def replacement : Char := '\ufffd'

/-- A sequence begun and not finished. -/
structure Sequence where
  /-- How many continuation bytes are still to come. -/
  missing : Nat
  /-- The least byte that may come next. -/
  low : UInt8
  /-- The greatest byte that may come next. -/
  high : UInt8
  /-- The bits of the code point read so far. -/
  bits : Nat
deriving Repr, DecidableEq

/-- The sequence that a first byte of a longer form announces. The bounds on the
second byte exclude overlong forms, surrogates and what lies past U+10FFFF. -/
def Sequence.start? (b : UInt8) : Option Sequence :=
  if 0xc2 ≤ b ∧ b ≤ 0xdf then some ⟨1, 0x80, 0xbf, b.toNat - 0xc0⟩
  else if b = 0xe0 then some ⟨2, 0xa0, 0xbf, 0⟩
  else if b = 0xed then some ⟨2, 0x80, 0x9f, 0xd⟩
  else if 0xe1 ≤ b ∧ b ≤ 0xef then some ⟨2, 0x80, 0xbf, b.toNat - 0xe0⟩
  else if b = 0xf0 then some ⟨3, 0x90, 0xbf, 0⟩
  else if 0xf1 ≤ b ∧ b ≤ 0xf3 then some ⟨3, 0x80, 0xbf, b.toNat - 0xf0⟩
  else if b = 0xf4 then some ⟨3, 0x80, 0x8f, 4⟩
  else none

/-- A decoder between two bytes: the sequence it is in, if any, and what it has
written, last character first. -/
structure Decoder where
  sequence : Option Sequence
  written : List Char
deriving Repr, DecidableEq

/-- A decoder that has read nothing. -/
def Decoder.empty : Decoder := ⟨none, []⟩

/-- Reads a byte that begins something. -/
def Decoder.begin (written : List Char) (b : UInt8) : Decoder :=
  if b < 0x80 then ⟨none, Char.ofNat b.toNat :: written⟩
  else match Sequence.start? b with
    | some sequence => ⟨some sequence, written⟩
    | none => ⟨none, replacement :: written⟩

/-- Reads one byte. -/
def Decoder.push (d : Decoder) (b : UInt8) : Decoder :=
  match d.sequence with
  | none => begin d.written b
  | some s =>
    if s.low ≤ b ∧ b ≤ s.high then
      let bits := s.bits * 64 + (b.toNat - 0x80)
      if s.missing ≤ 1 then ⟨none, Char.ofNat bits :: d.written⟩
      else ⟨some ⟨s.missing - 1, 0x80, 0xbf, bits⟩, d.written⟩
    else begin (replacement :: d.written) b

/-- What is written once the bytes have ended: an unfinished sequence counts as
ill-formed. -/
def Decoder.finish (d : Decoder) : List Char :=
  match d.sequence with
  | none => d.written.reverse
  | some _ => (replacement :: d.written).reverse

/-- The characters that bytes stand for. -/
def decode (bytes : List UInt8) : List Char :=
  (bytes.foldl Decoder.push .empty).finish

/-- Whether the bytes are well-formed from `d` on: nothing had to be replaced. -/
def Decoder.accepts : Decoder → List UInt8 → Bool
  | d, [] => d.sequence.isNone
  | d, b :: bytes =>
    (match d.sequence with
      | none => b < 0x80 || (Sequence.start? b).isSome
      | some s => s.low ≤ b && b ≤ s.high) && (d.push b).accepts bytes

/-- The characters of well-formed bytes; nothing for ill-formed ones. -/
def decode? (bytes : List UInt8) : Option (List Char) :=
  if Decoder.accepts .empty bytes then some (decode bytes) else none

/-- The bytes of a text. -/
def encode (text : List Char) : List UInt8 :=
  text.flatMap String.utf8EncodeChar

end Utf8
end DiagnosticWatch
