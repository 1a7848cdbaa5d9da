/-
# Bytes that are one frame

Writing a frame and reading bytes that are exactly one frame undo each other:
the bytes that `Frame.decode` accepts are those that `Frame.encode` gives, no
others, and both hold the same length to be the longest. Bytes that are no
frame are refused for one of three reasons (`Frame.Refused`), of which the
first that applies is told: the prefix is not there as a whole, no frame has
it, or other than the announced number of bytes follow it.

Key definitions: `Frame.Refused`.
Key theorems: `Frame.decode_eq_ok_iff`, `Frame.decode_eq_error_iff`,
`Frame.encode_eq_ok_iff`, `Frame.decode_inverts_encode`.
-/
import DiagnosticWatch.Proofs.Wire.FirstFrame

namespace DiagnosticWatch
namespace Frame

/-- What is wrong with bytes that are not exactly one frame. -/
inductive Refused : List UInt8 → WireError → Prop
  | short {data : List UInt8} (length : data.length < 4) : Refused data (.prefixSize data.length)
  | outside {a b c d : UInt8} {rest : List UInt8}
      (range : ¬(1 ≤ Int32Wire.decode a b c d + 1 ∧ Int32Wire.decode a b c d + 1 ≤ maxLength)) :
      Refused (a :: b :: c :: d :: rest) (.frameLength (Int32Wire.decode a b c d + 1))
  | mismatched {a b c d : UInt8} {rest : List UInt8} {length : Nat}
      (declared : announced a b c d = .ok length) (found : rest.length ≠ length) :
      Refused (a :: b :: c :: d :: rest) (.frameBody length rest.length)

variable {f : Frame} {e : WireError} {a b c d : UInt8} {length : Nat} {data rest body : List UInt8}

/-! ### Reading -/

theorem decode_of_short (h : data.length < 4) : decode data = .error (.prefixSize data.length) := by
  match data with
  | [] | [_] | [_, _] | [_, _, _] => rfl
  | _ :: _ :: _ :: _ :: _ =>
    simp only [List.length_cons] at h
    omega

theorem decode_of_outside (h : announced a b c d = .error e) :
    decode (a :: b :: c :: d :: rest) = .error e := by
  simp [decode, decodeLength, h]

theorem decode_of_mismatched (h : announced a b c d = .ok length) (ne : rest.length ≠ length) :
    decode (a :: b :: c :: d :: rest) = .error (.frameBody length rest.length) := by
  cases rest with
  | nil => simp [decode, decodeLength, h]
  | cons code body =>
    have hne : body.length + 1 ≠ length := ne
    simp [decode, decodeLength, h, hne]

/-- Bytes are exactly one frame, or there is one thing wrong with them. -/
theorem decode_cases (data : List UInt8) :
    (∃ f : Frame, f.Fits ∧ data = f.bytes ∧ decode data = .ok f) ∨
    ∃ e, Refused data e ∧ decode data = .error e := by
  by_cases hshort : data.length < 4
  · exact .inr ⟨_, .short hshort, decode_of_short hshort⟩
  obtain ⟨a, b, c, d, rest, rfl⟩ : ∃ a b c d rest, data = a :: b :: c :: d :: rest := by
    match data with
    | [] | [_] | [_, _] | [_, _, _] => simp at hshort
    | a :: b :: c :: d :: rest => exact ⟨a, b, c, d, rest, rfl⟩
  cases ha : announced a b c d with
  | error e =>
    obtain ⟨rfl, range⟩ := announced_eq_error_iff.mp ha
    exact .inr ⟨_, .outside range, decode_of_outside ha⟩
  | ok length =>
    by_cases hlen : rest.length = length
    · -- What the prefix announces is there, and nothing behind it.
      obtain ⟨f, rest', hf, hb⟩ := exists_frame_of_announced ha (Nat.le_of_eq hlen.symm)
      obtain ⟨a', b', c', d', hbytes, ha'⟩ := announced_of_fits hf
      rw [hbytes] at hb
      simp only [List.cons_append, List.cons.injEq] at hb
      obtain ⟨rfl, rfl, rfl, rfl, hrest⟩ := hb
      have hnil : rest' = [] := by
        rw [ha, Except.ok.injEq] at ha'
        rw [← List.length_eq_zero_iff]
        have := congrArg List.length hrest
        simp only [List.length_cons, List.length_append] at this
        omega
      subst hnil
      rw [hrest, List.append_nil, ← hbytes]
      exact .inl ⟨f, hf, rfl, decode_bytes hf⟩
    · exact .inr ⟨_, .mismatched ha hlen, decode_of_mismatched ha hlen⟩

/-- Bytes are read as the frame that has them as its bytes. -/
theorem decode_eq_ok_iff : decode data = .ok f ↔ f.Fits ∧ data = f.bytes := by
  constructor
  · intro h
    obtain ⟨g, hg, rfl, hd⟩ | ⟨e, -, hd⟩ := decode_cases data <;> rw [hd] at h <;> cases h
    exact ⟨hg, rfl⟩
  · rintro ⟨hf, rfl⟩
    exact decode_bytes hf

/-- Bytes are refused for what is wrong with them. -/
theorem decode_eq_error_iff : decode data = .error e ↔ Refused data e := by
  constructor
  · intro h
    obtain ⟨g, -, -, hd⟩ | ⟨e', he, hd⟩ := decode_cases data <;> rw [hd] at h <;> cases h
    exact he
  · rintro (hshort | range | ⟨ha, hlen⟩)
    · exact decode_of_short hshort
    · exact decode_of_outside (announced_eq_error_iff.mpr ⟨rfl, range⟩)
    · exact decode_of_mismatched ha hlen

/-- Only for its length is a frame refused as too long or too short. -/
theorem decode_eq_frameLength_iff {n : Int} : decode data = .error (.frameLength n) ↔
    ∃ a b c d rest, data = a :: b :: c :: d :: rest ∧ n = Int32Wire.decode a b c d + 1 ∧
      ¬(1 ≤ n ∧ n ≤ maxLength) := by
  rw [decode_eq_error_iff]
  constructor
  · rintro ⟨⟩
    exact ⟨_, _, _, _, _, rfl, rfl, ‹_›⟩
  · rintro ⟨a, b, c, d, rest, rfl, rfl, range⟩
    exact .outside range

/-! ### Writing -/

/-- What is written is the bytes of a frame that fits. -/
theorem encode_eq_ok_iff {code : Int} : encode code body = .ok data ↔
    ∃ f : Frame, f.Fits ∧ data = f.bytes ∧ code = f.code.toNat ∧ body = f.body := by
  constructor
  · intro h
    unfold encode at h
    split at h
    · cases h
    split at h
    · rename_i hlen hcode
      cases h
      refine ⟨⟨UInt8.ofNat code.toNat, body⟩, Nat.le_of_not_lt hlen, rfl, ?_, rfl⟩
      simp only [UInt8.toNat_ofNat']
      omega
    · cases h
  · rintro ⟨f, hf, rfl, rfl, rfl⟩
    exact encode_of_fits hf

/-- The length is looked at before the type. -/
theorem encode_eq_length_iff {code : Int} {n : Nat} :
    encode code body = .error (.length n) ↔ n = body.length + 1 ∧ maxLength < n := by
  unfold encode
  split
  · rename_i hlong
    simp only [Except.error.injEq, EncodeError.length.injEq]
    exact ⟨fun h => ⟨h.symm, h ▸ hlong⟩, fun h => h.1.symm⟩
  · rename_i hfits
    have hno : ¬(n = body.length + 1 ∧ maxLength < n) := by omega
    simp only [hno, iff_false]
    split <;> simp

/-- The length that the bytes of a frame announce, as long as the prefix can hold it. -/
theorem decode_bytes_eq_frameLength_iff (h : f.body.length < 2147483648) {n : Nat} :
    decode f.bytes = .error (.frameLength n) ↔ n = f.body.length + 1 ∧ maxLength < n := by
  obtain ⟨a, b, c, d, he, hd⟩ : ∃ a b c d, Int32Wire.encode f.body.length = [a, b, c, d] ∧
      Int32Wire.decode a b c d = f.body.length :=
    Int32Wire.decode_encode (by omega) (by omega)
  have hbytes : f.bytes = a :: b :: c :: d :: f.code :: f.body := by simp [Frame.bytes, he]
  rw [decode_eq_frameLength_iff, hbytes]
  constructor
  · rintro ⟨a', b', c', d', rest, hcons, hn, range⟩
    cases hcons
    omega
  · rintro ⟨hn, range⟩
    exact ⟨a, b, c, d, _, rfl, by omega, by omega⟩

/-! ### Both -/

/-- Reading a frame undoes writing it, and writing what was read gives the bytes back, so
that all bytes are refused that no frame is written as, and no others. A length is refused
as such if the prefix is there and holds one that is not accepted, and the longest frame
that is written is the longest that is read. -/
theorem decode_inverts_encode :
    (∀ f : Frame, f.body.length + 1 ≤ maxLength →
      ∃ data, encode f.code.toNat f.body = .ok data ∧ decode data = .ok f) ∧
    (∀ (data : List UInt8) (f : Frame), decode data = .ok f →
      encode f.code.toNat f.body = .ok data) ∧
    (∀ data : List UInt8, (∃ e, decode data = .error e) ↔
      ∀ (code : Int) (body : List UInt8), encode code body ≠ .ok data) ∧
    (∀ (data : List UInt8) (e : WireError), decode data = .error e ↔ Refused data e) ∧
    (∀ (data : List UInt8) (n : Int), decode data = .error (.frameLength n) ↔
      ∃ a b c d rest, data = a :: b :: c :: d :: rest ∧ n = Int32Wire.decode a b c d + 1 ∧
        ¬(1 ≤ n ∧ n ≤ maxLength)) ∧
    (∀ (code : Int) (body : List UInt8) (n : Nat),
      encode code body = .error (.length n) ↔ n = body.length + 1 ∧ maxLength < n) ∧
    ∀ (f : Frame) (n : Nat), f.body.length < 2147483648 →
      (encode f.code.toNat f.body = .error (.length n) ↔
        decode f.bytes = .error (.frameLength n)) := by
  refine ⟨fun f hf => ⟨f.bytes, encode_of_fits hf, decode_bytes hf⟩, ?_, ?_,
    fun data e => decode_eq_error_iff, fun data n => decode_eq_frameLength_iff,
    fun code body n => encode_eq_length_iff, ?_⟩
  · intro data f h
    obtain ⟨hf, rfl⟩ := decode_eq_ok_iff.mp h
    exact encode_of_fits hf
  · intro data
    constructor
    · rintro ⟨e, he⟩ code body h
      obtain ⟨f, hf, rfl, -, -⟩ := encode_eq_ok_iff.mp h
      rw [decode_bytes hf] at he
      cases he
    · intro h
      obtain ⟨f, hf, rfl, -⟩ | ⟨e, -, he⟩ := decode_cases data
      · exact absurd (encode_of_fits hf) (h f.code.toNat f.body)
      · exact ⟨e, he⟩
  · intro f n h
    rw [encode_eq_length_iff, decode_bytes_eq_frameLength_iff h]

/-- A frame of three bytes and its type, and what is left when its last byte is missing. -/
theorem decode_inverts_of_text :
    encode 0 [97, 98, 99] = .ok [3, 0, 0, 0, 0, 97, 98, 99] ∧
    ∀ (code : Int) (body : List UInt8), encode code body ≠ .ok [3, 0, 0, 0, 0, 97, 98] := by
  obtain ⟨hencode, hdecode, hrefused, -⟩ := decode_inverts_encode
  obtain ⟨data, hdata, hread⟩ := hencode ⟨0, [97, 98, 99]⟩ (by decide)
  have hbytes : data = [3, 0, 0, 0, 0, 97, 98, 99] := (decode_eq_ok_iff.mp hread).2
  subst hbytes
  exact ⟨hdecode _ ⟨0, [97, 98, 99]⟩ hread, (hrefused _).mp ⟨.frameBody 4 3, rfl⟩⟩

end Frame
end DiagnosticWatch
