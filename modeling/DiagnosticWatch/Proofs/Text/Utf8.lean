/-
# Reading back written text

The bytes of a character take the decoder through one sequence, whatever it
has written before, and leave it with that character and nothing begun
(`Utf8.foldl_push_utf8EncodeChar`). The first byte says how many bytes follow
and bounds the second, which is why the bounds of the second byte of a
character in UTF-8 are those that exclude overlong forms and surrogates.

Key theorems: `Utf8.foldl_push_utf8EncodeChar`, `Utf8.decode_encode`.
-/
import DiagnosticWatch.Text.Utf8

namespace DiagnosticWatch
namespace Utf8

variable {b : UInt8} {s : Sequence} {n : Nat}

/-! ### First bytes -/

theorem start?_ascii : ∀ n < 128, Sequence.start? (UInt8.ofNat n) = none := by
  decide

theorem start?_two : ∀ n < 32, 2 ≤ n →
    Sequence.start? (UInt8.ofNat (n + 192)) = some ⟨1, 0x80, 0xbf, n⟩ := by
  decide

theorem start?_three : ∀ n < 16, Sequence.start? (UInt8.ofNat (n + 224)) =
    some ⟨2, if n = 0 then 0xa0 else 0x80, if n = 0xd then 0x9f else 0xbf, n⟩ := by
  decide

theorem start?_four : ∀ n < 5, Sequence.start? (UInt8.ofNat (n + 240)) =
    some ⟨3, if n = 0 then 0x90 else 0x80, if n = 4 then 0x8f else 0xbf, n⟩ := by
  decide

theorem push_of_ascii (h : n < 128) (written : List Char) :
    Decoder.push ⟨none, written⟩ (UInt8.ofNat n) = ⟨none, Char.ofNat n :: written⟩ := by
  have hn : (UInt8.ofNat n).toNat = n := UInt8.toNat_ofNat_of_lt' (show n < 256 by omega)
  have hlt : UInt8.ofNat n < 0x80 := UInt8.lt_iff_toNat_lt.mpr (by simpa [hn] using h)
  simp only [Decoder.push, Decoder.begin, if_pos hlt, hn]

theorem push_of_start (h : Sequence.start? b = some s) (written : List Char) :
    Decoder.push ⟨none, written⟩ b = ⟨some s, written⟩ := by
  have hb : ¬b < 0x80 := by
    intro hlt
    have hnone := start?_ascii b.toNat (UInt8.lt_iff_toNat_lt.mp hlt)
    rw [UInt8.ofNat_toNat, h] at hnone
    cases hnone
  simp only [Decoder.push, Decoder.begin, if_neg hb, h]

/-! ### Bytes that continue a sequence -/

/-- The six bits of a byte within the bounds of the sequence go behind those read. -/
theorem push_of_continuation (hn : n < 64) (hlow : s.low.toNat ≤ n + 128)
    (hhigh : n + 128 ≤ s.high.toNat) (written : List Char) :
    Decoder.push ⟨some s, written⟩ (UInt8.ofNat (n + 128)) =
      if s.missing ≤ 1 then ⟨none, Char.ofNat (s.bits * 64 + n) :: written⟩
      else ⟨some ⟨s.missing - 1, 0x80, 0xbf, s.bits * 64 + n⟩, written⟩ := by
  have hb : (UInt8.ofNat (n + 128)).toNat = n + 128 := UInt8.toNat_ofNat_of_lt' (show n + 128 < 256 by omega)
  have hbounds : s.low ≤ UInt8.ofNat (n + 128) ∧ UInt8.ofNat (n + 128) ≤ s.high := by
    simp only [UInt8.le_iff_toNat_le, hb]
    exact ⟨hlow, hhigh⟩
  simp only [Decoder.push, if_pos hbounds, hb, Nat.add_sub_cancel]

/-! ### Whole characters -/

/-- The bytes of a character put that character behind what is written. -/
theorem foldl_push_utf8EncodeChar (c : Char) (written : List Char) :
    (String.utf8EncodeChar c).foldl Decoder.push ⟨none, written⟩ = ⟨none, c :: written⟩ := by
  have hc : Char.ofNat c.val.toNat = c := Char.ofNat_toNat c
  have hvalid : c.val.toNat < 55296 ∨ 57343 < c.val.toNat ∧ c.val.toNat < 1114112 := c.valid
  simp only [String.utf8EncodeChar]
  generalize c.val.toNat = v at hc hvalid
  split
  · simp [push_of_ascii (show v < 128 by omega), hc]
  split
  · rw [Nat.mod_eq_of_lt (by omega : v / 64 < 32)]
    simp only [List.foldl_cons, List.foldl_nil, push_of_start (start?_two (v / 64) (by omega) (by omega))]
    rw [push_of_continuation (by omega) (by simp) (by simp; omega)]
    have hv : v / 64 * 64 + v % 64 = v := by omega
    simp [hv, hc]
  split
  · rw [Nat.mod_eq_of_lt (by omega : v / 4096 < 16)]
    simp only [List.foldl_cons, List.foldl_nil, push_of_start (start?_three (v / 4096) (by omega))]
    -- A second byte below the bound would be an overlong form, one above it a surrogate.
    have hlow : (if v / 4096 = 0 then 0xa0 else 0x80 : UInt8).toNat ≤ v / 64 % 64 + 128 := by
      split
      · simp
        omega
      · simp
    have hhigh : v / 64 % 64 + 128 ≤ (if v / 4096 = 0xd then 0x9f else 0xbf : UInt8).toNat := by
      split <;> simp <;> omega
    rw [push_of_continuation (by omega) hlow hhigh]
    simp only [if_neg (by omega : ¬(2 ≤ 1))]
    rw [push_of_continuation (by omega) (by simp) (by simp; omega)]
    have hv : (v / 4096 * 64 + v / 64 % 64) * 64 + v % 64 = v := by omega
    simp [hv, hc]
  · rw [Nat.mod_eq_of_lt (by omega : v / 262144 < 8)]
    simp only [List.foldl_cons, List.foldl_nil, push_of_start (start?_four (v / 262144) (by omega))]
    have hlow : (if v / 262144 = 0 then 0x90 else 0x80 : UInt8).toNat ≤ v / 4096 % 64 + 128 := by
      split
      · simp
        omega
      · simp
    have hhigh : v / 4096 % 64 + 128 ≤ (if v / 262144 = 4 then 0x8f else 0xbf : UInt8).toNat := by
      split <;> simp <;> omega
    rw [push_of_continuation (by omega) hlow hhigh]
    simp only [if_neg (by omega : ¬(3 ≤ 1))]
    rw [push_of_continuation (by omega) (by simp) (by simp; omega)]
    simp only [Nat.add_one_sub_one, if_neg (by omega : ¬(2 ≤ 1))]
    rw [push_of_continuation (by omega) (by simp) (by simp; omega)]
    have hv : ((v / 262144 * 64 + v / 4096 % 64) * 64 + v / 64 % 64) * 64 + v % 64 = v := by omega
    simp [hv, hc]

/-- Written text is read back. -/
theorem decode_encode (text : List Char) : decode (encode text) = text := by
  have hall : ∀ written : List Char,
      (encode text).foldl Decoder.push ⟨none, written⟩ = ⟨none, text.reverse ++ written⟩ := by
    induction text with
    | nil => exact fun _ => rfl
    | cons c text ih =>
      intro written
      rw [encode, List.flatMap_cons, List.foldl_append, foldl_push_utf8EncodeChar, ← encode, ih]
      simp
  simp [decode, Decoder.empty, hall, Decoder.finish]

end Utf8
end DiagnosticWatch
