/-
# Signed 32-bit integers on the wire

Every integer of the debug server's format is four bytes, least significant
byte first, in two's complement. Reading undoes writing for every integer in
range, and writing undoes reading for every four bytes.

Key definitions: `Int32Wire.decode`, `Int32Wire.encode`.
Key theorems: `Int32Wire.decode_encode`, `Int32Wire.encode_decode`,
`Int32Wire.decode_range`.
-/

namespace DiagnosticWatch
namespace Int32Wire

/-- The number that four bytes stand for without a sign, the first byte being
the least significant. -/
def word (a b c d : UInt8) : Nat :=
  a.toNat + 256 * (b.toNat + 256 * (c.toNat + 256 * d.toNat))

/-- The integer that four bytes stand for: words with the top bit set are
negative. -/
def decode (a b c d : UInt8) : Int :=
  if word a b c d < 2147483648 then word a b c d else (word a b c d : Int) - 4294967296

/-- The four bytes of a word. -/
def bytes (n : Nat) : List UInt8 :=
  [UInt8.ofNat n, UInt8.ofNat (n / 256), UInt8.ofNat (n / 65536), UInt8.ofNat (n / 16777216)]

/-- The four bytes of an integer; one outside the signed range is taken modulo
2^32. -/
def encode (value : Int) : List UInt8 :=
  bytes (value % 4294967296).toNat

@[simp] theorem length_encode (value : Int) : (encode value).length = 4 := rfl

theorem word_lt (a b c d : UInt8) : word a b c d < 4294967296 := by
  have := a.toNat_lt
  have := b.toNat_lt
  have := c.toNat_lt
  have := d.toNat_lt
  unfold word
  omega

/-- A decoded integer is in the signed 32-bit range. -/
theorem decode_range (a b c d : UInt8) :
    -2147483648 ≤ decode a b c d ∧ decode a b c d < 2147483648 := by
  have := word_lt a b c d
  unfold decode
  split <;> omega

/-- Writing the word of four bytes gives the bytes back. -/
theorem bytes_word (a b c d : UInt8) : bytes (word a b c d) = [a, b, c, d] := by
  have ha := a.toNat_lt
  have hb := b.toNat_lt
  have hc := c.toNat_lt
  have hd := d.toNat_lt
  simp only [bytes, List.cons.injEq, and_true]
  refine ⟨?_, ?_, ?_, ?_⟩ <;> apply UInt8.toNat_inj.mp <;>
    simp only [UInt8.toNat_ofNat', word] <;> omega

/-- Writing a decoded integer gives its bytes back. -/
theorem encode_decode (a b c d : UInt8) : encode (decode a b c d) = [a, b, c, d] := by
  have h := word_lt a b c d
  rw [← bytes_word a b c d, encode]
  congr 1
  unfold decode
  split <;> omega

/-- Reading a written integer gives it back, if it is in the signed range. -/
theorem decode_encode {value : Int} (low : -2147483648 ≤ value) (high : value < 2147483648) :
    ∃ a b c d, encode value = [a, b, c, d] ∧ decode a b c d = value := by
  refine ⟨_, _, _, _, rfl, ?_⟩
  simp only [decode, word, UInt8.toNat_ofNat']
  split <;> omega

end Int32Wire
end DiagnosticWatch
