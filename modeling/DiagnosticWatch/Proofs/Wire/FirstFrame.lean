/-
# The first frame of a run of bytes

A run of bytes begins with a whole frame, or with a part of one, or with a
prefix that no frame has (`Frame.next?_cases`). A frame at the front, and a
prefix that no frame has, stay what they are whatever bytes follow; only a
part of a frame waits for more. Taking the first frame off undoes writing it,
and writing it undoes taking it off.

Key definitions: `Frame.bytes`, `Frame.Fits`, `Frame.IsPartial`,
`Frame.IsGarbled`.
Key theorems: `Frame.next?_bytes_append`, `Frame.decode_bytes`, `Frame.next?_cases`.
-/
import DiagnosticWatch.Wire.Frame

namespace DiagnosticWatch
namespace Frame

/-- The bytes of a frame. -/
def bytes (f : Frame) : List UInt8 :=
  Int32Wire.encode f.body.length ++ f.code :: f.body

/-- The frame is not longer than accepted. -/
def Fits (f : Frame) : Prop :=
  f.body.length + 1 ≤ maxLength

/-- The bytes begin a frame and do not complete it: the prefix is not there as a whole,
or fewer bytes follow than it announces. -/
def IsPartial (bytes : List UInt8) : Prop :=
  bytes.length < 4 ∨ ∃ a b c d rest length, bytes = a :: b :: c :: d :: rest ∧
    announced a b c d = .ok length ∧ rest.length < length

/-- The bytes begin with a prefix that no frame has. -/
def IsGarbled (bytes : List UInt8) (e : WireError) : Prop :=
  ∃ a b c d rest, bytes = a :: b :: c :: d :: rest ∧ announced a b c d = .error e

variable {f : Frame} {e : WireError} {a b c d : UInt8} {length : Nat} {bytes rest : List UInt8}

@[simp] theorem length_bytes (f : Frame) : f.bytes.length = f.body.length + 5 := by
  simp [Frame.bytes]
  omega

/-- A frame that fits is written as its bytes. -/
theorem encode_of_fits (h : f.Fits) : encode f.code.toNat f.body = .ok f.bytes := by
  have hc := f.code.toNat_lt
  unfold encode
  rw [if_neg (by unfold Fits at h; omega), if_pos (by omega)]
  simp [Frame.bytes]

/-! ### Prefixes -/

theorem announced_eq_ok_iff : announced a b c d = .ok length ↔
    Int32Wire.decode a b c d + 1 = length ∧ 1 ≤ length ∧ length ≤ maxLength := by
  simp only [announced]
  split
  · rw [Except.ok.injEq]
    omega
  · simp only [reduceCtorEq, false_iff]
    omega

theorem announced_eq_error_iff : announced a b c d = .error e ↔
    e = .frameLength (Int32Wire.decode a b c d + 1) ∧
      ¬(1 ≤ Int32Wire.decode a b c d + 1 ∧ Int32Wire.decode a b c d + 1 ≤ maxLength) := by
  simp only [announced]
  split
  · simp_all
  · rw [Except.error.injEq]
    exact ⟨fun h => ⟨h.symm, ‹_›⟩, fun h => h.1.symm⟩

/-- A frame that fits announces the type byte and the body. -/
theorem announced_of_fits (h : f.Fits) : ∃ a b c d,
    f.bytes = a :: b :: c :: d :: f.code :: f.body ∧ announced a b c d = .ok (f.body.length + 1) := by
  have hlimit : maxLength = 4194304 := rfl
  unfold Fits at h
  obtain ⟨a, b, c, d, he, hd⟩ : ∃ a b c d, Int32Wire.encode f.body.length = [a, b, c, d] ∧
      Int32Wire.decode a b c d = f.body.length :=
    Int32Wire.decode_encode (by omega) (by omega)
  refine ⟨a, b, c, d, by simp [Frame.bytes, he], announced_eq_ok_iff.mpr ⟨?_, by omega, h⟩⟩
  rw [hd]
  push_cast
  rfl

/-! ### What the bytes begin with -/

/-- A whole frame at the front is taken off. -/
theorem next?_bytes_append (h : f.Fits) (rest : List UInt8) :
    next? (f.bytes ++ rest) = .ok (some (f, rest)) := by
  obtain ⟨a, b, c, d, hb, ha⟩ := announced_of_fits h
  simp [hb, next?, ha]

/-- A frame that fits is what its bytes are as a whole. -/
theorem decode_bytes (h : f.Fits) : decode f.bytes = .ok f := by
  obtain ⟨a, b, c, d, hb, ha⟩ := announced_of_fits h
  simp [hb, decode, decodeLength, ha]

theorem next?_of_partial (h : IsPartial bytes) : next? bytes = .ok none := by
  obtain hshort | ⟨a, b, c, d, rest, length, rfl, ha, hr⟩ := h
  · match bytes with
    | [] | [_] | [_, _] | [_, _, _] => rfl
    | _ :: _ :: _ :: _ :: _ =>
      simp only [List.length_cons] at hshort
      omega
  · have htake : rest.take length = rest := List.take_of_length_le (by omega)
    simp only [next?, ha, htake]
    cases rest with
    | nil => rfl
    | cons code body =>
      have hne : body.length + 1 ≠ length := Nat.ne_of_lt hr
      simp [hne]

theorem next?_of_garbled (h : IsGarbled bytes e) : next? bytes = .error e := by
  obtain ⟨a, b, c, d, rest, rfl, ha⟩ := h
  simp [next?, ha]

/-- A prefix that the bytes that follow it satisfy begins a whole frame. -/
theorem exists_frame_of_announced (h : announced a b c d = .ok length) (hr : length ≤ rest.length) :
    ∃ (f : Frame) (rest' : List UInt8), f.Fits ∧ a :: b :: c :: d :: rest = f.bytes ++ rest' := by
  obtain ⟨hd, hpos, hmax⟩ := announced_eq_ok_iff.mp h
  cases rest with
  | nil =>
    simp at hr
    omega
  | cons code tail =>
    have hlen : (tail.take (length - 1)).length = length - 1 := by
      simp at hr ⊢
      omega
    refine ⟨⟨code, tail.take (length - 1)⟩, tail.drop (length - 1), ?_, ?_⟩
    · show (tail.take (length - 1)).length + 1 ≤ maxLength
      omega
    · have hvalue : ((length - 1 : Nat) : Int) = Int32Wire.decode a b c d := by omega
      simp [Frame.bytes, hlen, hvalue, Int32Wire.encode_decode]

/-- Bytes begin with a whole frame, with a part of one, or with a prefix that no frame
has. -/
theorem next?_cases (bytes : List UInt8) :
    (∃ f rest, f.Fits ∧ bytes = f.bytes ++ rest ∧ next? bytes = .ok (some (f, rest))) ∨
    (IsPartial bytes ∧ next? bytes = .ok none) ∨
    ∃ e, IsGarbled bytes e ∧ next? bytes = .error e := by
  match bytes with
  | [] | [_] | [_, _] | [_, _, _] =>
    exact .inr (.inl ⟨.inl (by simp), rfl⟩)
  | a :: b :: c :: d :: rest =>
    cases ha : announced a b c d with
    | error e =>
      have hg : IsGarbled (a :: b :: c :: d :: rest) e := ⟨a, b, c, d, rest, rfl, ha⟩
      exact .inr (.inr ⟨e, hg, next?_of_garbled hg⟩)
    | ok length =>
      by_cases hr : rest.length < length
      · have hp : IsPartial (a :: b :: c :: d :: rest) := .inr ⟨a, b, c, d, rest, length, rfl, ha, hr⟩
        exact .inr (.inl ⟨hp, next?_of_partial hp⟩)
      · obtain ⟨f, rest', hf, hb⟩ := exists_frame_of_announced ha (Nat.le_of_not_lt hr)
        exact .inl ⟨f, rest', hf, hb, by rw [hb, next?_bytes_append hf]⟩

/-- A prefix that no frame has is never made good. -/
theorem IsGarbled.append (h : IsGarbled bytes e) (more : List UInt8) : IsGarbled (bytes ++ more) e := by
  obtain ⟨a, b, c, d, rest, rfl, ha⟩ := h
  exact ⟨a, b, c, d, rest ++ more, rfl, ha⟩

/-- The only thing wrong with bytes can be the length that they announce. -/
theorem eq_frameLength_of_garbled (h : IsGarbled bytes e) :
    ∃ length : Int, e = .frameLength length ∧ ¬(1 ≤ length ∧ length ≤ maxLength) := by
  obtain ⟨a, b, c, d, rest, -, ha⟩ := h
  exact ⟨_, announced_eq_error_iff.mp ha⟩

/-- A part of a frame is shorter than a prefix and the longest frame. -/
theorem length_lt_of_partial (h : IsPartial bytes) : bytes.length < 4 + maxLength := by
  obtain hshort | ⟨a, b, c, d, rest, length, rfl, ha, hr⟩ := h
  · omega
  · obtain ⟨-, -, hmax⟩ := announced_eq_ok_iff.mp ha
    simp only [List.length_cons]
    omega

end Frame
end DiagnosticWatch
