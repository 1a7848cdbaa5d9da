/-
# Three ways to find a frame

An inbox takes a frame out, an inbox tells whether it holds one, and bytes are
read that are exactly one frame: three pieces of code, each with its own look
at the prefix, the limit and the length. They find the same frames. A frame
comes out of an inbox exactly if the bytes begin with bytes that are read as
it, the ones behind being left (`Inbox.next_eq_ok_iff`), and there is only one
way for bytes to begin so (`Inbox.split_unique`).

Key theorems: `Inbox.next_eq_ok_iff`, `Inbox.split_unique`,
`Inbox.hasFrame_iff_decode`, `Inbox.next_of_not_hasFrame`, `Receiver.isAlive_iff_next`.
-/
import DiagnosticWatch.Proofs.Wire.Streaming
import DiagnosticWatch.Proofs.Wire.WholeFrame
import DiagnosticWatch.Receiver

namespace DiagnosticWatch
namespace Inbox

variable {inbox rest : Inbox} {f g : Frame}

/-- A frame is taken out exactly if the bytes before those left are read as that frame. -/
theorem next_eq_ok_iff : inbox.next = (.ok (some f), rest) ↔
    ∃ data, inbox.bytes = data ++ rest.bytes ∧ Frame.decode data = .ok f := by
  constructor
  · intro h
    obtain ⟨hf, hb⟩ := eq_append_of_next h
    exact ⟨f.bytes, hb, Frame.decode_bytes hf⟩
  · rintro ⟨data, hb, hd⟩
    obtain ⟨hf, rfl⟩ := Frame.decode_eq_ok_iff.mp hd
    simp [next, hb, Frame.next?_bytes_append hf]

/-- Bytes begin with a frame in one way only. -/
theorem split_unique {bytes data left data' left' : List UInt8} (h : bytes = data ++ left)
    (hd : Frame.decode data = .ok f) (h' : bytes = data' ++ left')
    (hd' : Frame.decode data' = .ok g) : data = data' ∧ left = left' ∧ f = g := by
  have hnext : (⟨bytes⟩ : Inbox).next = (.ok (some f), ⟨left⟩) := next_eq_ok_iff.mpr ⟨data, h, hd⟩
  have hnext' : (⟨bytes⟩ : Inbox).next = (.ok (some g), ⟨left'⟩) :=
    next_eq_ok_iff.mpr ⟨data', h', hd'⟩
  rw [hnext] at hnext'
  cases hnext'
  exact ⟨List.append_cancel_right (h.symm.trans h'), rfl, rfl⟩

theorem hasFrame_iff_decode : inbox.hasFrame = true ↔
    ∃ data left f, inbox.bytes = data ++ left ∧ Frame.decode data = .ok f := by
  rw [hasFrame_iff]
  constructor
  · rintro ⟨f, rest, h⟩
    obtain ⟨data, hb, hd⟩ := next_eq_ok_iff.mp h
    exact ⟨data, rest.bytes, f, hb, hd⟩
  · rintro ⟨data, left, f, hb, hd⟩
    exact ⟨f, ⟨left⟩, next_eq_ok_iff.mpr ⟨data, hb, hd⟩⟩

/-- Where no frame is there, a call for one finds nothing or a length that no frame has, and
leaves the inbox as it is. -/
theorem next_of_not_hasFrame (h : inbox.hasFrame = false) : inbox.next = (.ok none, inbox) ∨
    ∃ length : Int, inbox.next = (.error (.frameLength length), inbox) := by
  obtain ⟨f, rest, -, -, hn⟩ | ⟨-, hn⟩ | ⟨e, hg, hn⟩ := next_cases inbox
  · have htrue : inbox.hasFrame = true := hasFrame_iff.mpr ⟨f, rest, hn⟩
    rw [h] at htrue
    cases htrue
  · exact .inl hn
  · obtain ⟨length, rfl, -⟩ := Frame.eq_frameLength_of_garbled hg
    exact .inr ⟨length, hn⟩

end Inbox

/-- A peer that has left cleanly counts as there exactly as long as a frame can be taken out. -/
theorem Receiver.isAlive_iff_next {r : Receiver} (hclosed : r.peerClosed = true)
    (herror : r.error = none) :
    r.isAlive = true ↔ ∃ f rest, r.inbox.next = (.ok (some f), rest) := by
  rw [← Inbox.hasFrame_iff]
  simp [Receiver.isAlive, hclosed, herror]

end DiagnosticWatch
