/-
# Texts that end in a zero byte

The count of a text includes the zero byte behind it. The reader drops the
last character of what it has decoded, which is that byte whatever bytes are
before it, ill-formed ones included: behind any of them a zero byte stands for
itself.

Key theorems: `Format.text_spelled`, `Reader.text_terminated`.
-/
import DiagnosticWatch.Proofs.Text.Replacement
import DiagnosticWatch.Proofs.Wire.Format

namespace DiagnosticWatch

/-- A count, as many bytes and a zero spell the text that the bytes stand for. -/
theorem Format.text_spelled {content : List UInt8} {chars : List Char}
    (h : Utf8.Reads content chars) (hlen : content.length + 1 < 2147483648) :
    Format.text (Int32Wire.encode (content.length + 1) ++ (content ++ [0]))
      (String.ofList chars) := by
  have hcount : Format.int32 (Int32Wire.encode (content.length + 1)) (content ++ [0]).length := by
    rw [List.length_append, List.length_singleton]
    exact Int32Wire.decode_encode (by omega) (by omega)
  refine ⟨_, content ++ [0], rfl, hcount, ?_⟩
  rw [Utf8.reads_iff.mp h.append_zero, List.dropLast_concat]

/-- Of a counted text the reader drops the zero byte at the end and nothing else: it returns the
one text that the bytes before it stand for, and leaves what is behind it. -/
theorem Reader.text_terminated (content rest : List UInt8) (h : content.length + 1 < 2147483648) :
    ∃ string : String,
      Reader.text (Int32Wire.encode (content.length + 1) ++ content ++ [0] ++ rest) =
        .ok string rest ∧
      (∀ chars, Utf8.Reads content chars ↔ chars = string.toList) ∧
      ∀ sent : String, Utf8.encode sent.toList = content → string = sent := by
  obtain ⟨chars, hchars⟩ := Utf8.exists_reads content
  have honly : ∀ other, Utf8.Reads content other ↔ other = chars := by
    intro other
    rw [Utf8.reads_iff, Utf8.reads_iff.mp hchars, eq_comm]
  refine ⟨String.ofList chars, ?_, ?_, ?_⟩
  · have hread := Reader.follows_text.reads (Format.text_spelled hchars h) rest
    simpa only [List.append_assoc] using hread
  · simpa using honly
  · rintro sent rfl
    have hsent : sent.toList = chars := (honly _).mp (Utf8.reads_encode _)
    rw [← hsent, String.ofList_toList]

/-- A text that ends inside a character. -/
theorem Reader.text_terminated_cut :
    ([0x61, 0xe2, 0x82] : List UInt8).length + 1 < 2147483648 ∧ ∃ string : String,
      Reader.text (Int32Wire.encode 4 ++ [0x61, 0xe2, 0x82] ++ [0] ++ [7]) = .ok string [7] ∧
      (∀ chars, Utf8.Reads [0x61, 0xe2, 0x82] chars ↔ chars = string.toList) ∧
      ∀ sent : String, Utf8.encode sent.toList = [0x61, 0xe2, 0x82] → string = sent :=
  ⟨by decide, Reader.text_terminated [0x61, 0xe2, 0x82] [7] (by decide)⟩

end DiagnosticWatch
