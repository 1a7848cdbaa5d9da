/-
# Reports arrive as they were sent

What the debug server writes about a file is spelled the way the reader
expects it (`Format.payload_encode`), so it is read back whatever comes behind
it: the path in its canonical spelling, and the entries in their order, each
with its message, its line counted from 0, and the severity of its flags.

Key definitions: `Entry.InRange`, `Entry.Shows`.
Key theorems: `Format.payload_encode`, `Report.read_of_sent`.
-/
import DiagnosticWatch.Proofs.Report.Grammar
import DiagnosticWatch.Proofs.Wire.FirstFrame
import DiagnosticWatch.Proofs.Wire.Terminated
import Mathlib.Data.List.Forall2

namespace DiagnosticWatch

/-- The integer has a place in four bytes. -/
def Int32Wire.InRange (value : Int) : Prop :=
  -2147483648 ≤ value ∧ value < 2147483648

instance (value : Int) : Decidable (Int32Wire.InRange value) := instDecidableAnd

namespace Entry

/-- The entry can be on the wire. -/
structure InRange (e : Entry) : Prop where
  line : Int32Wire.InRange e.line
  column : Int32Wire.InRange e.column
  errorFlag : Int32Wire.InRange e.errorFlag
  informationFlag : Int32Wire.InRange e.informationFlag

/-- The diagnostic says what the entry says. -/
structure Shows (e : Entry) (d : Diagnostic) : Prop where
  message : d.message = e.message
  start : d.start = ⟨(max e.line 1 - 1).toNat, 0⟩
  finish : d.finish = ⟨(max e.line 1 - 1).toNat, 10000⟩
  severity : d.severity =
    if e.informationFlag ≠ 0 then .information else if e.errorFlag ≠ 0 then .error else .warning

theorem shows_diagnostic (e : Entry) : e.Shows e.diagnostic where
  message := rfl
  start := rfl
  finish := rfl
  severity := by simp [diagnostic, Diagnostic.atLine, Severity.ofFlags]

end Entry

/-! ### What is written is spelled -/

namespace Format

open Payload

theorem int32_encode {value : Int} (h : Int32Wire.InRange value) :
    int32 (Int32Wire.encode value) value :=
  Int32Wire.decode_encode h.1 h.2

theorem text_encode {string : String} (h : (encodeText string).length < 2147483648) :
    text (encodeText string) string := by
  have hlen : (Utf8.encode string.toList).length + 1 < 2147483648 := by
    simp only [encodeText, List.length_append, List.length_singleton] at h
    omega
  have hspelled := text_spelled (Utf8.reads_encode string.toList) hlen
  rw [String.ofList_toList] at hspelled
  simpa [encodeText] using hspelled

theorem entry_encode {e : Entry} (h : e.InRange) (hlen : (encodeEntry e).length < 2147483648) :
    entry (encodeEntry e) e := by
  have hmessage : (encodeText e.message).length < 2147483648 := by
    simp only [encodeEntry, List.length_append] at hlen
    omega
  exact ⟨_, _, _, _, _, by simp [encodeEntry], text_encode hmessage, int32_encode h.line,
    int32_encode h.column, int32_encode h.errorFlag, int32_encode h.informationFlag⟩

theorem entries_encode {es : List Entry} (h : ∀ e ∈ es, e.InRange)
    (hlen : (es.flatMap encodeEntry).length < 2147483648) : entries (es.flatMap encodeEntry) es := by
  induction es with
  | nil => exact .nil
  | cons e es ih =>
    simp only [List.flatMap_cons, List.length_append] at hlen
    exact .cons (entry_encode (h e List.mem_cons_self) (by omega))
      (ih (fun e' he' => h e' (List.mem_cons_of_mem e he')) (by omega))

/-- What the debug server writes is spelled. -/
theorem payload_encode {path : String} {es : List Entry} (h : ∀ e ∈ es, e.InRange)
    (hlen : (encode path es).length < 2147483648) : payload (encode path es) (path, es) := by
  simp only [encode, List.length_append] at hlen
  have hlist : entries (es.flatMap encodeEntry) es := entries_encode h (by omega)
  have hcount : Int32Wire.InRange (es.length : Int) := by
    have := length_entries hlist
    constructor <;> omega
  exact ⟨_, _, _, List.append_assoc .., text_encode (by omega), int32_encode hcount, hlist⟩

end Format

namespace Report

/-- What the debug server writes about a file and sends in a frame arrives: the frame is
written, read back as a diagnostics frame, and its body is a report on the path in its
canonical spelling, with one diagnostic for each entry, in order, whatever comes behind
the entries. -/
theorem read_of_sent {path : String} {entries : List Entry} {behind : List UInt8}
    (hrange : ∀ e ∈ entries, e.InRange)
    (hfits : (Payload.encode path entries ++ behind).length + 1 ≤ Frame.maxLength) :
    ∃ bytes frame report,
      Frame.encode Kind.diagnostics.code (Payload.encode path entries ++ behind) = .ok bytes ∧
      Frame.decode bytes = .ok frame ∧ frame.kind? = some .diagnostics ∧
      read frame.body = .ok report ∧
      report.path.text = String.ofList (SourcePath.normalize path.toList) ∧
      List.Forall₂ Entry.Shows entries report.diagnostics := by
  have hlimit : Frame.maxLength = 4194304 := rfl
  have hlen : (Payload.encode path entries).length < 2147483648 := by
    rw [List.length_append] at hfits
    omega
  have hframe : Frame.Fits ⟨0, Payload.encode path entries ++ behind⟩ := hfits
  refine ⟨_, _, .of path (entries.map Entry.diagnostic), Frame.encode_of_fits hframe,
    Frame.decode_bytes hframe, rfl, read_append (Format.payload_encode hrange hlen) behind, rfl, ?_⟩
  exact List.forall₂_map_right_iff.mpr (List.forall₂_same.mpr fun e _ => e.shows_diagnostic)

theorem read_of_sent_warning :
    let entry : Entry := ⟨"ü\x00😀", -7, 3, 0, 0⟩
    entry.InRange ∧ ∃ bytes frame report,
      Frame.encode Kind.diagnostics.code (Payload.encode "a\\\\b" [entry] ++ [1, 2]) = .ok bytes ∧
      Frame.decode bytes = .ok frame ∧ frame.kind? = some .diagnostics ∧
      read frame.body = .ok report ∧
      report.path.text = String.ofList (SourcePath.normalize "a\\\\b".toList) ∧
      List.Forall₂ Entry.Shows [entry] report.diagnostics := by
  intro entry
  have hrange : entry.InRange := ⟨by decide, by decide, by decide, by decide⟩
  refine ⟨hrange, read_of_sent ?_ (by decide +kernel)⟩
  simpa using hrange

end Report
end DiagnosticWatch
