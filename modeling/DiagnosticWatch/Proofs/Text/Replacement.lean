/-
# What ill-formed text is read as

`Utf8.Reads` says which characters bytes stand for without a decoder: bytes
that start with the form of a character stand for it, and where no form of a
character starts, the longest part that begins one, or else a single byte,
stands for U+FFFD. Bytes stand for one text only, and it is the one that the
decoder writes (`Utf8.reads_iff`). A zero byte is part of no longer form, so
it stands for itself behind anything (`Utf8.Reads.append_zero`).

The link between the two is `Utf8.exists_utf8EncodeChar_eq_cons_iff`: behind a
first byte, the forms of characters are what completes the sequence that the
decoder begins there.

Key definitions: `Utf8.Begins`, `Utf8.Replaced`, `Utf8.Reads`.
Key theorems: `Utf8.exists_utf8EncodeChar_eq_cons_iff`, `Utf8.reads_iff`,
`Utf8.Reads.append_zero`.
-/
import DiagnosticWatch.Proofs.Text.Utf8
import Mathlib.Data.Nat.Find
import Mathlib.Data.List.Infix

namespace DiagnosticWatch
namespace Utf8

/-- The form of some character begins with these bytes. -/
def Begins (part : List UInt8) : Prop :=
  ∃ c : Char, part <+: String.utf8EncodeChar c

/-- One replacement character stands for `part` at the front of `bytes`: no character is spelled
there, and `part` is as much as begins one, or one byte if none does. -/
structure Replaced (part bytes : List UInt8) : Prop where
  nonempty : part ≠ []
  here : part <+: bytes
  unspelled : ∀ c : Char, ¬String.utf8EncodeChar c <+: bytes
  begins : part.length = 1 ∨ Begins part
  longest : ∀ longer, longer <+: bytes → part.length < longer.length → ¬Begins longer

/-- The bytes stand for the text. -/
inductive Reads : List UInt8 → List Char → Prop
  | nil : Reads [] []
  | char {bytes : List UInt8} {text : List Char} (c : Char) :
      Reads bytes text → Reads (String.utf8EncodeChar c ++ bytes) (c :: text)
  | replaced {part bytes : List UInt8} {text : List Char} :
      Replaced part (part ++ bytes) → Reads bytes text →
        Reads (part ++ bytes) (replacement :: text)

variable {b : UInt8} {s : Sequence} {part bytes tail : List UInt8} {text : List Char}

/-- Written text stands for itself. -/
theorem reads_encode (text : List Char) : Reads (encode text) text := by
  induction text with
  | nil => exact .nil
  | cons c text ih => exact .char c ih

/-! ### Everything stands for something -/

theorem exists_replaced (hne : bytes ≠ []) (h : ∀ c : Char, ¬String.utf8EncodeChar c <+: bytes) :
    ∃ part, Replaced part bytes := by
  classical
  -- How many bytes at the front begin a character.
  let k := Nat.findGreatest (fun n => Begins (bytes.take n)) bytes.length
  have hbegins : Begins (bytes.take k) :=
    Nat.findGreatest_spec (P := fun n => Begins (bytes.take n)) (Nat.zero_le _)
      ⟨'a', List.nil_prefix⟩
  have hk : k ≤ bytes.length := Nat.findGreatest_le _
  have hlen : 0 < bytes.length := List.length_pos_of_ne_nil hne
  have hpart : (bytes.take (max k 1)).length = max k 1 := by
    rw [List.length_take]
    omega
  refine ⟨bytes.take (max k 1), ?_, List.take_prefix _ _, h, ?_, ?_⟩
  · apply List.ne_nil_of_length_pos
    omega
  · by_cases hone : k ≤ 1
    · exact .inl (by rw [hpart, max_eq_right hone])
    · rw [max_eq_left (by omega)]
      exact .inr hbegins
  · intro longer hlonger hlt hbad
    have hle : longer.length ≤ bytes.length := hlonger.length_le
    rw [List.prefix_iff_eq_take.mp hlonger] at hbad
    exact Nat.findGreatest_is_greatest (P := fun n => Begins (bytes.take n)) (by omega) hle hbad

theorem exists_reads (bytes : List UInt8) : ∃ text, Reads bytes text := by
  induction hn : bytes.length using Nat.strong_induction_on generalizing bytes with
  | _ n ih =>
    by_cases hnil : bytes = []
    · subst hnil
      exact ⟨[], .nil⟩
    by_cases hchar : ∃ c : Char, String.utf8EncodeChar c <+: bytes
    · obtain ⟨c, rest, rfl⟩ := hchar
      have hpos : 0 < (String.utf8EncodeChar c).length := by
        rw [String.length_utf8EncodeChar]
        exact Char.utf8Size_pos c
      obtain ⟨text, htext⟩ := ih rest.length (by rw [← hn, List.length_append]; omega) rest rfl
      exact ⟨c :: text, .char c htext⟩
    · obtain ⟨part, hpart⟩ := exists_replaced hnil (not_exists.mp hchar)
      obtain ⟨rest, rfl⟩ := hpart.here
      have hpos : 0 < part.length := List.length_pos_of_ne_nil hpart.nonempty
      obtain ⟨text, htext⟩ := ih rest.length (by rw [← hn, List.length_append]; omega) rest rfl
      exact ⟨replacement :: text, .replaced hpart htext⟩

/-! ### The forms of characters -/

/-- What may stand behind the bytes of a sequence to make them a character. -/
def Sequence.Completes (s : Sequence) : List UInt8 → Prop
  | [] => False
  | b :: tail => (s.low ≤ b ∧ b ≤ s.high) ∧ tail.length + 1 = s.missing ∧
      ∀ x ∈ tail, 0x80 ≤ x ∧ x ≤ 0xbf

theorem start?_eq : ∀ n < 256, Sequence.start? (UInt8.ofNat n) =
    if 194 ≤ n ∧ n < 224 then some ⟨1, 0x80, 0xbf, n - 192⟩
    else if 224 ≤ n ∧ n < 240 then
      some ⟨2, if n = 224 then 0xa0 else 0x80, if n = 237 then 0x9f else 0xbf, n - 224⟩
    else if 240 ≤ n ∧ n < 245 then
      some ⟨3, if n = 240 then 0x90 else 0x80, if n = 244 then 0x8f else 0xbf, n - 240⟩
    else none := by
  decide +kernel

theorem start?_bounds (h : Sequence.start? b = some s) :
    1 ≤ s.missing ∧ 0x80 ≤ s.low ∧ s.low ≤ s.high ∧ s.high ≤ 0xbf := by
  unfold Sequence.start? at h
  split_ifs at h <;> cases h <;> simp

/-- All bytes of a form behind the first are continuation bytes. -/
theorem continuation_of_completes (hs : Sequence.start? b = some s) (h : s.Completes tail) :
    ∀ x ∈ tail, 0x80 ≤ x ∧ x ≤ 0xbf := by
  obtain ⟨-, hlow, -, hhigh⟩ := start?_bounds hs
  cases tail with
  | nil => exact h.elim
  | cons x tail =>
    obtain ⟨hx, -, htail⟩ := h
    rw [List.forall_mem_cons]
    exact ⟨⟨UInt8.le_trans hlow hx.1, UInt8.le_trans hx.2 hhigh⟩, htail⟩

theorem exists_continuation {x : UInt8} (h : 0x80 ≤ x ∧ x ≤ 0xbf) :
    ∃ m < 64, x = UInt8.ofNat (m + 128) := by
  have hlow : 128 ≤ x.toNat := UInt8.le_iff_toNat_le.mp h.1
  have hhigh : x.toNat ≤ 191 := UInt8.le_iff_toNat_le.mp h.2
  refine ⟨x.toNat - 128, by omega, ?_⟩
  rw [Nat.sub_add_cancel hlow, UInt8.ofNat_toNat]

theorem val_ofNat {v : Nat} (h : v < 55296 ∨ 57343 < v ∧ v < 1114112) :
    (Char.ofNat v).val.toNat = v := by
  have hvalid : v.isValidChar := h
  rw [Char.ofNat, dif_pos hvalid]
  rfl

theorem utf8EncodeChar_one {n : Nat} (hn : n < 128) :
    String.utf8EncodeChar (Char.ofNat n) = [UInt8.ofNat n] := by
  simp only [String.utf8EncodeChar, val_ofNat (show n < 55296 ∨ _ by omega)]
  rw [if_pos (by omega)]

theorem utf8EncodeChar_two {n m : Nat} (hlow : 2 ≤ n) (hn : n < 32) (hm : m < 64) :
    String.utf8EncodeChar (Char.ofNat (n * 64 + m)) =
      [UInt8.ofNat (n + 192), UInt8.ofNat (m + 128)] := by
  have h₁ : (n * 64 + m) / 64 % 32 = n := by omega
  have h₂ : (n * 64 + m) % 64 = m := by omega
  simp only [String.utf8EncodeChar, val_ofNat (show n * 64 + m < 55296 ∨ _ by omega), h₁, h₂]
  rw [if_neg (by omega), if_pos (by omega)]

theorem utf8EncodeChar_three {n m k : Nat} (hn : n < 16) (hm : m < 64) (hk : k < 64)
    (hlow : n = 0 → 32 ≤ m) (hhigh : n = 13 → m < 32) :
    String.utf8EncodeChar (Char.ofNat ((n * 64 + m) * 64 + k)) =
      [UInt8.ofNat (n + 224), UInt8.ofNat (m + 128), UInt8.ofNat (k + 128)] := by
  have h₁ : ((n * 64 + m) * 64 + k) / 4096 % 16 = n := by omega
  have h₂ : ((n * 64 + m) * 64 + k) / 64 % 64 = m := by omega
  have h₃ : ((n * 64 + m) * 64 + k) % 64 = k := by omega
  have hv := val_ofNat (v := (n * 64 + m) * 64 + k) (by omega)
  simp only [String.utf8EncodeChar, hv, h₁, h₂, h₃]
  rw [if_neg (by omega), if_neg (by omega), if_pos (by omega)]

theorem utf8EncodeChar_four {n m k j : Nat} (hn : n < 5) (hm : m < 64) (hk : k < 64) (hj : j < 64)
    (hlow : n = 0 → 16 ≤ m) (hhigh : n = 4 → m < 16) :
    String.utf8EncodeChar (Char.ofNat (((n * 64 + m) * 64 + k) * 64 + j)) =
      [UInt8.ofNat (n + 240), UInt8.ofNat (m + 128), UInt8.ofNat (k + 128),
        UInt8.ofNat (j + 128)] := by
  have h₁ : (((n * 64 + m) * 64 + k) * 64 + j) / 262144 % 8 = n := by omega
  have h₂ : (((n * 64 + m) * 64 + k) * 64 + j) / 4096 % 64 = m := by omega
  have h₃ : (((n * 64 + m) * 64 + k) * 64 + j) / 64 % 64 = k := by omega
  have h₄ : (((n * 64 + m) * 64 + k) * 64 + j) % 64 = j := by omega
  have hv := val_ofNat (v := ((n * 64 + m) * 64 + k) * 64 + j) (by omega)
  simp only [String.utf8EncodeChar, hv, h₁, h₂, h₃, h₄]
  rw [if_neg (by omega), if_neg (by omega), if_neg (by omega)]

theorem le_ofNat {low : UInt8} {m : Nat} (h : low.toNat ≤ m) (hm : m < 256) :
    low ≤ UInt8.ofNat m := by
  rwa [UInt8.le_iff_toNat_le, UInt8.toNat_ofNat_of_lt' hm]

theorem ofNat_le {high : UInt8} {m : Nat} (h : m ≤ high.toNat) (hm : m < 256) :
    UInt8.ofNat m ≤ high := by
  rwa [UInt8.le_iff_toNat_le, UInt8.toNat_ofNat_of_lt' hm]

/-- The form of a character beyond the first 128 completes the sequence that its first byte
begins. -/
theorem completes_of_utf8EncodeChar {c : Char} (h : String.utf8EncodeChar c = b :: tail) :
    (b < 0x80 ∧ tail = []) ∨ ∃ s, Sequence.start? b = some s ∧ s.Completes tail := by
  have hvalid : c.val.toNat < 55296 ∨ 57343 < c.val.toNat ∧ c.val.toNat < 1114112 := c.valid
  have hcont : ∀ m, (0x80 : UInt8) ≤ UInt8.ofNat (m % 64 + 128) ∧
      UInt8.ofNat (m % 64 + 128) ≤ 0xbf := fun m =>
    ⟨le_ofNat (by simp) (by omega), ofNat_le (by simp; omega) (by omega)⟩
  simp only [String.utf8EncodeChar] at h
  generalize c.val.toNat = v at h hvalid
  split at h
  · cases h
    exact .inl ⟨UInt8.lt_iff_toNat_lt.mpr (by simp; omega), rfl⟩
  split at h
  · cases h
    have hs := start?_two (v / 64 % 32) (by omega) (by omega)
    exact .inr ⟨_, hs, hcont v, rfl, by simp⟩
  split at h
  · cases h
    have hs := start?_three (v / 4096 % 16) (by omega)
    have hlow : (if v / 4096 % 16 = 0 then 0xa0 else 0x80 : UInt8).toNat ≤ v / 64 % 64 + 128 := by
      split
      · simp
        omega
      · simp
    have hhigh : v / 64 % 64 + 128 ≤ (if v / 4096 % 16 = 0xd then 0x9f else 0xbf : UInt8).toNat := by
      split <;> simp <;> omega
    exact .inr ⟨_, hs, ⟨le_ofNat hlow (by omega), ofNat_le hhigh (by omega)⟩, rfl,
      by simpa using hcont v⟩
  · cases h
    have hlast : v / 262144 % 8 < 5 := by omega
    have hs := start?_four (v / 262144 % 8) hlast
    have hlow : (if v / 262144 % 8 = 0 then 0x90 else 0x80 : UInt8).toNat ≤
        v / 4096 % 64 + 128 := by
      split
      · simp
        omega
      · simp
    have hhigh : v / 4096 % 64 + 128 ≤
        (if v / 262144 % 8 = 4 then 0x8f else 0xbf : UInt8).toNat := by
      split <;> simp <;> omega
    exact .inr ⟨_, hs, ⟨le_ofNat hlow (by omega), ofNat_le hhigh (by omega)⟩, rfl,
      by simpa using And.intro (hcont (v / 64)) (hcont v)⟩

/-- What completes the sequence that a first byte begins is the form of a character. -/
theorem exists_utf8EncodeChar_of_completes (hs : Sequence.start? b = some s)
    (h : s.Completes tail) : ∃ c : Char, String.utf8EncodeChar c = b :: tail := by
  obtain ⟨n, hn, rfl⟩ : ∃ n < 256, b = UInt8.ofNat n :=
    ⟨b.toNat, b.toNat_lt, UInt8.ofNat_toNat.symm⟩
  have hto : ∀ m < 64, (UInt8.ofNat (m + 128)).toNat = m + 128 := fun m hm =>
    UInt8.toNat_ofNat_of_lt' (show m + 128 < 256 by omega)
  have hcont := continuation_of_completes hs h
  rw [start?_eq n hn] at hs
  cases tail with
  | nil => exact h.elim
  | cons x tail =>
    obtain ⟨hbounds, hlen, -⟩ := h
    obtain ⟨m, hm, rfl⟩ := exists_continuation (hcont x (by simp))
    rw [UInt8.le_iff_toNat_le, UInt8.le_iff_toNat_le, hto m hm] at hbounds
    split at hs
    · cases hs
      cases List.eq_nil_of_length_eq_zero (Nat.succ.inj hlen)
      refine ⟨_, (utf8EncodeChar_two (n := n - 192) (by omega) (by omega) hm).trans ?_⟩
      rw [Nat.sub_add_cancel (by omega)]
    split at hs
    · cases hs
      obtain ⟨y, rfl⟩ := List.length_eq_one_iff.mp (Nat.succ.inj hlen)
      obtain ⟨k, hk, rfl⟩ := exists_continuation (hcont y (by simp))
      refine ⟨_, (utf8EncodeChar_three (n := n - 224) (by omega) hm hk ?_ ?_).trans ?_⟩
      · intro h0
        simp [show n = 224 by omega] at hbounds
        omega
      · intro h0
        simp [show n = 237 by omega] at hbounds
        omega
      · rw [Nat.sub_add_cancel (by omega)]
    split at hs
    · cases hs
      obtain ⟨y, z, rfl⟩ := List.length_eq_two.mp (Nat.succ.inj hlen)
      obtain ⟨k, hk, rfl⟩ := exists_continuation (hcont y (by simp))
      obtain ⟨j, hj, rfl⟩ := exists_continuation (hcont z (by simp))
      refine ⟨_, (utf8EncodeChar_four (n := n - 240) (by omega) hm hk hj ?_ ?_).trans ?_⟩
      · intro h0
        simp [show n = 240 by omega] at hbounds
        omega
      · intro h0
        simp [show n = 244 by omega] at hbounds
        omega
      · rw [Nat.sub_add_cancel (by omega)]
    · cases hs

/-- Behind a first byte, the forms of characters are what completes the sequence begun there. -/
theorem exists_utf8EncodeChar_eq_cons_iff : (∃ c : Char, String.utf8EncodeChar c = b :: tail) ↔
    (b < 0x80 ∧ tail = []) ∨ ∃ s, Sequence.start? b = some s ∧ s.Completes tail := by
  constructor
  · rintro ⟨c, hc⟩
    exact completes_of_utf8EncodeChar hc
  · rintro (⟨hb, rfl⟩ | ⟨s, hs, htail⟩)
    · exact ⟨Char.ofNat b.toNat, by rw [utf8EncodeChar_one (UInt8.lt_iff_toNat_lt.mp hb), UInt8.ofNat_toNat]⟩
    · exact exists_utf8EncodeChar_of_completes hs htail

/-! ### Sequences of the decoder -/

/-- A byte within the bounds of a sequence that waits for more leaves the rest of what completes
it. -/
theorem completes_push (hb : s.low ≤ b ∧ b ≤ s.high) (hmissing : 2 ≤ s.missing) (bits : Nat) :
    (⟨s.missing - 1, 0x80, 0xbf, bits⟩ : Sequence).Completes tail ↔ s.Completes (b :: tail) := by
  cases tail with
  | nil =>
    simp only [Sequence.Completes, List.length_nil, false_iff]
    omega
  | cons x tail =>
    simp only [Sequence.Completes, List.length_cons, List.forall_mem_cons]
    constructor
    · rintro ⟨hx, hlen, htail⟩
      exact ⟨hb, by omega, hx, htail⟩
    · rintro ⟨-, hlen, hx, htail⟩
      exact ⟨hx, by omega, htail⟩

/-- Part of what completes a sequence takes the decoder into one that the rest completes, and
nothing is written. -/
theorem exists_sequence_of_completes (h : s.Completes (part ++ tail)) (htail : tail ≠ []) :
    ∃ t : Sequence, (∀ written, part.foldl Decoder.push ⟨some s, written⟩ = ⟨some t, written⟩) ∧
      ∀ other, t.Completes other ↔ s.Completes (part ++ other) := by
  induction part generalizing s with
  | nil => exact ⟨s, fun _ => rfl, fun _ => Iff.rfl⟩
  | cons b part ih =>
    obtain ⟨hb, hlen, -⟩ := id h
    have hmissing : 2 ≤ s.missing := by
      have hpos : 0 < tail.length := List.length_pos_of_ne_nil htail
      have hsum : (part ++ tail).length + 1 = s.missing := hlen
      rw [List.length_append] at hsum
      omega
    have hpush : ∀ written, Decoder.push ⟨some s, written⟩ b =
        ⟨some ⟨s.missing - 1, 0x80, 0xbf, s.bits * 64 + (b.toNat - 0x80)⟩, written⟩ := by
      intro written
      simp only [Decoder.push, if_pos hb]
      rw [if_neg (by omega)]
    obtain ⟨t, ht, hother⟩ := ih ((completes_push hb hmissing _).mpr h)
    refine ⟨t, fun written => ?_, fun other => ?_⟩
    · rw [List.foldl_cons, hpush, ht]
    · rw [hother, completes_push hb hmissing, List.cons_append]

/-- A byte within the bounds of a sequence can be followed to its completion. -/
theorem Sequence.Completes.exists_of_bounds (h : s.Completes tail)
    (hb : s.low ≤ b ∧ b ≤ s.high) : ∃ tail, s.Completes (b :: tail) := by
  cases tail with
  | nil => exact h.elim
  | cons x tail => exact ⟨tail, hb, h.2⟩

/-- Part of the form of a character leaves the decoder in a sequence, with nothing written; the
bytes that it takes next are those that begin a character there. -/
theorem exists_sequence_of_begins (hpart : part ≠ []) (hbegins : Begins part)
    (hwhole : ∀ c : Char, String.utf8EncodeChar c ≠ part) :
    ∃ s : Sequence, (∀ written, part.foldl Decoder.push ⟨none, written⟩ = ⟨some s, written⟩) ∧
      ∀ b, s.low ≤ b ∧ b ≤ s.high → Begins (part ++ [b]) := by
  obtain ⟨c, tail, hc⟩ := hbegins
  have htail : tail ≠ [] := by
    rintro rfl
    exact hwhole c (by rw [← hc, List.append_nil])
  cases part with
  | nil => exact absurd rfl hpart
  | cons a part =>
    rcases completes_of_utf8EncodeChar hc.symm with ⟨-, hnil⟩ | ⟨s, hs, hcompletes⟩
    · exact absurd (List.append_eq_nil_iff.mp hnil).2 htail
    · obtain ⟨t, ht, hother⟩ := exists_sequence_of_completes hcompletes htail
      refine ⟨t, fun written => ?_, fun b hb => ?_⟩
      · rw [List.foldl_cons, push_of_start hs, ht]
      · obtain ⟨more, hmore⟩ := ((hother tail).mpr hcompletes).exists_of_bounds hb
        obtain ⟨d, hd⟩ := exists_utf8EncodeChar_of_completes hs ((hother _).mp hmore)
        exact ⟨d, more, by rw [hd]; simp⟩

/-- A byte that begins no character is replaced at once. -/
theorem push_of_not_begins (h : ¬Begins [b]) (written : List Char) :
    Decoder.push ⟨none, written⟩ b = ⟨none, replacement :: written⟩ := by
  have hb : ¬b < 0x80 := by
    intro hb
    obtain ⟨c, hc⟩ := exists_utf8EncodeChar_eq_cons_iff.mpr (.inl ⟨hb, rfl⟩)
    exact h ⟨c, [], by rw [hc, List.append_nil]⟩
  have hs : Sequence.start? b = none := by
    rw [Option.eq_none_iff_forall_ne_some]
    intro s hs
    obtain ⟨hmissing, -, hbounds, -⟩ := start?_bounds hs
    have hcompletes : s.Completes (s.low :: List.replicate (s.missing - 1) 0x80) := by
      refine ⟨⟨UInt8.le_refl _, hbounds⟩, by simp; omega, ?_⟩
      intro x hx
      rw [List.eq_of_mem_replicate hx]
      decide
    obtain ⟨c, hc⟩ := exists_utf8EncodeChar_of_completes hs hcompletes
    exact h ⟨c, _, by rw [hc]; rfl⟩
  simp only [Decoder.push, Decoder.begin, if_neg hb, hs]

/-- The decoder writes one replacement character for what is replaced. -/
theorem finish_of_replaced (h : Replaced part (part ++ bytes)) (written : List Char) :
    ((part ++ bytes).foldl Decoder.push ⟨none, written⟩).finish =
      (bytes.foldl Decoder.push ⟨none, replacement :: written⟩).finish := by
  rw [List.foldl_append]
  by_cases hbegins : Begins part
  · have hwhole : ∀ c : Char, String.utf8EncodeChar c ≠ part :=
      fun c hc => h.unspelled c (hc ▸ List.prefix_append part bytes)
    obtain ⟨s, hs, hnext⟩ := exists_sequence_of_begins h.nonempty hbegins hwhole
    rw [hs]
    cases bytes with
    | nil => rfl
    | cons b bytes =>
      have hout : ¬(s.low ≤ b ∧ b ≤ s.high) := by
        intro hb
        have hlonger : part ++ [b] <+: part ++ b :: bytes := ⟨bytes, by simp⟩
        exact h.longest _ hlonger (by simp) (hnext b hb)
      simp only [List.foldl_cons, Decoder.push, if_neg hout]
  · obtain ⟨b, rfl⟩ := List.length_eq_one_iff.mp (h.begins.resolve_right hbegins)
    rw [List.foldl_cons, List.foldl_nil, push_of_not_begins hbegins]

/-- The decoder writes the text that bytes stand for. -/
theorem Reads.finish (h : Reads bytes text) (written : List Char) :
    (bytes.foldl Decoder.push ⟨none, written⟩).finish = written.reverse ++ text := by
  induction h generalizing written with
  | nil => simp [Decoder.finish]
  | char c _ ih => rw [List.foldl_append, foldl_push_utf8EncodeChar, ih]; simp
  | replaced hpart _ ih => rw [finish_of_replaced hpart, ih]; simp

/-- Bytes stand for one text, the one that the decoder writes. -/
theorem reads_iff : Reads bytes text ↔ decode bytes = text := by
  have hdecode : ∀ {text}, Reads bytes text → decode bytes = text := fun h => h.finish []
  refine ⟨hdecode, ?_⟩
  rintro rfl
  obtain ⟨text, htext⟩ := exists_reads bytes
  rwa [hdecode htext]

example : decode [0x61, 0xe2, 0x82, 0x62, 0xff, 0xed, 0xa0] =
    ['a', replacement, 'b', replacement, replacement, replacement] := by decide

/-! ### A zero byte -/

/-- A zero byte is the whole form of a character or no part of it. -/
theorem utf8EncodeChar_of_zero_mem {c : Char} (h : 0 ∈ String.utf8EncodeChar c) :
    String.utf8EncodeChar c = [0] := by
  obtain ⟨b, tail, hc⟩ := List.exists_cons_of_ne_nil (List.ne_nil_of_mem h)
  rw [hc] at h ⊢
  rcases completes_of_utf8EncodeChar hc with ⟨-, rfl⟩ | ⟨s, hs, htail⟩
  · rw [List.mem_singleton.mp h]
  · rcases List.mem_cons.mp h with rfl | hmem
    · cases hs
    · exact absurd (continuation_of_completes hs htail 0 hmem).1 (by decide)

theorem not_begins_append_zero (h : bytes ≠ []) : ¬Begins (bytes ++ [0]) := by
  rintro ⟨c, hc⟩
  have hzero := utf8EncodeChar_of_zero_mem (hc.subset (by simp))
  have hlen : (bytes ++ [0]).length ≤ 1 := by simpa [hzero] using hc.length_le
  rw [List.length_append, List.length_singleton] at hlen
  exact h (List.eq_nil_of_length_eq_zero (by omega))

/-- What is replaced stays so with a zero byte behind it. -/
theorem Replaced.append_zero (h : Replaced part bytes) : Replaced part (bytes ++ [0]) := by
  have hne : bytes ≠ [] := fun hnil => h.nonempty (List.prefix_nil.mp (hnil ▸ h.here))
  have hzero := not_begins_append_zero hne
  refine ⟨h.nonempty, h.here.trans (List.prefix_append _ _), ?_, h.begins, ?_⟩
  · intro c hc
    rcases List.prefix_concat_iff.mp hc with heq | hprefix
    · exact hzero ⟨c, heq ▸ List.prefix_rfl⟩
    · exact h.unspelled c hprefix
  · intro longer hlonger hlt
    rcases List.prefix_concat_iff.mp hlonger with rfl | hprefix
    · exact hzero
    · exact h.longest longer hprefix hlt

/-- A zero byte stands for itself, whatever is before it. -/
theorem Reads.append_zero (h : Reads bytes text) : Reads (bytes ++ [0]) (text ++ ['\x00']) := by
  induction h with
  | nil => exact .char '\x00' .nil
  | char c _ ih =>
    rw [List.append_assoc]
    exact .char c ih
  | replaced hpart _ ih =>
    rw [List.append_assoc]
    refine .replaced ?_ ih
    rw [← List.append_assoc]
    exact hpart.append_zero

end Utf8
end DiagnosticWatch
