/-
# Formats and the readers that follow them

A format says which bytes stand for which value. A reader follows a format if
it accepts what the format spells, with anything behind it, and nothing else;
if it runs short on every part of what is spelled; and if whatever else it
finds wrong stays wrong, whatever comes behind (`Reader.Follows`). Reading two
things one after the other follows the two formats one after the other
(`Reader.Follows.bind`), so that a format of many parts needs one line for
each.

Key definitions: `Format`, `Reader.Follows`, `Format.int32`, `Format.text`.
Key theorems: `Reader.Follows.bind`, `Reader.follows_int32`,
`Reader.follows_text`.
-/
import DiagnosticWatch.Wire.Cursor

namespace DiagnosticWatch

/-- A read wanted more bytes than there were. -/
def WireError.IsShortage (e : WireError) : Prop :=
  ∃ wanted available, e = .truncated wanted available ∧ available < wanted

/-- A length or a count is negative. -/
def WireError.IsNegative : WireError → Prop
  | .negativeText count | .negativeCount count _ => count < 0
  | _ => False

/-- Which bytes stand for which value. -/
abbrev Format (α : Type) := List UInt8 → α → Prop

namespace Format

variable {α β : Type}

/-- No bytes, which stand for `a`. -/
def nothing (a : α) : Format α := fun bytes b => bytes = [] ∧ b = a

/-- Bytes of one format, and behind them bytes of the format that the value of the first
asks for. -/
def andThen (F : Format α) (G : α → Format β) : Format β := fun bytes b =>
  ∃ front back a, bytes = front ++ back ∧ F front a ∧ G a back b

/-- The four bytes of an integer. -/
def int32 : Format Int := fun bytes value =>
  ∃ a b c d, bytes = [a, b, c, d] ∧ Int32Wire.decode a b c d = value

/-- Bytes of a certain number, which stand for themselves. -/
def exactly (n : Nat) : Format (List UInt8) := fun bytes content =>
  bytes = content ∧ content.length = n

/-- A count and as many bytes, which stand for their characters without the last. -/
def text : Format String := fun bytes text =>
  ∃ count content, bytes = count ++ content ∧ int32 count content.length ∧
    text = String.ofList (Utf8.decode content).dropLast

theorem length_int32 {bytes : List UInt8} {value : Int} (h : int32 bytes value) :
    bytes.length = 4 := by
  obtain ⟨a, b, c, d, rfl, -⟩ := h
  rfl

theorem length_text {bytes : List UInt8} {string : String} (h : text bytes string) :
    4 ≤ bytes.length := by
  obtain ⟨count, content, rfl, hc, -⟩ := h
  rw [List.length_append, length_int32 hc]
  omega

end Format

namespace Reader

variable {α β : Type}

/-- The reader accepts what the format spells, and nothing else. -/
structure Follows (r : Reader α) (F : Format α) : Prop where
  /-- What is spelled is read, and what is behind it is left. -/
  reads : ∀ {front a}, F front a → ∀ rest, r (front ++ rest) = .ok a rest
  /-- What was read is spelled. -/
  spelled : ∀ {bytes a rest}, r bytes = .ok a rest → ∃ front, bytes = front ++ rest ∧ F front a
  /-- A part of what is spelled is too short. -/
  cut : ∀ {front a}, F front a → ∀ k < front.length,
    ∃ e rest, r (front.take k) = .error e rest ∧ e.IsShortage
  /-- What is refused is too short, or wrong with anything behind it. -/
  refuses : ∀ {bytes e rest}, r bytes = .error e rest → e.IsShortage ∨
    (e.IsNegative ∧ ∀ more, ∃ rest, r (bytes ++ more) = .error e rest)

variable {r : Reader α} {F G : Format α} {e : WireError} {a : α} {bytes rest : List UInt8}

/-- What the reader has read, it reads with more bytes behind it. -/
theorem Follows.extend (h : r.Follows F) (hr : r bytes = .ok a rest) (more : List UInt8) :
    r (bytes ++ more) = .ok a (rest ++ more) := by
  obtain ⟨front, rfl, hf⟩ := h.spelled hr
  rw [List.append_assoc, h.reads hf]

theorem Follows.congr (h : r.Follows F) (hFG : ∀ bytes a, F bytes a ↔ G bytes a) : r.Follows G := by
  have : F = G := funext fun bytes => funext fun a => propext (hFG bytes a)
  rwa [← this]

theorem bind_of_ok {f : α → Reader β} (h : r bytes = .ok a rest) : (r >>= f) bytes = f a rest := by
  simp only [bind, EStateM.bind, h]

theorem bind_of_error {f : α → Reader β} (h : r bytes = .error e rest) :
    (r >>= f) bytes = .error e rest := by
  simp only [bind, EStateM.bind, h]

/-! ### Reading in sequence -/

theorem follows_pure (a : α) : (pure a : Reader α).Follows (Format.nothing a) where
  reads := by
    rintro front _ ⟨rfl, rfl⟩ rest
    rfl
  spelled h := by
    cases h
    exact ⟨[], rfl, rfl, rfl⟩
  cut := by
    rintro front _ ⟨rfl, rfl⟩ k hk
    cases hk
  refuses h := nomatch h

theorem follows_throw (h : e.IsNegative) : (throw e : Reader α).Follows fun _ _ => False where
  reads := False.elim
  spelled h := nomatch h
  cut := False.elim
  refuses he := by
    cases he
    exact .inr ⟨h, fun more => ⟨_, rfl⟩⟩

theorem Follows.bind {f : α → Reader β} {H : α → Format β} (hr : r.Follows F)
    (hf : ∀ a, (f a).Follows (H a)) : (r >>= f).Follows (F.andThen H) where
  reads := by
    rintro _ b ⟨front, back, a, rfl, hF, hH⟩ rest
    rw [List.append_assoc, bind_of_ok (hr.reads hF (back ++ rest)), (hf a).reads hH]
  spelled := by
    intro bytes b rest h
    cases hb : r bytes with
    | error e middle =>
      rw [bind_of_error hb] at h
      cases h
    | ok a middle =>
      rw [bind_of_ok hb] at h
      obtain ⟨front, rfl, hF⟩ := hr.spelled hb
      obtain ⟨back, rfl, hH⟩ := (hf a).spelled h
      exact ⟨front ++ back, by rw [List.append_assoc], front, back, a, rfl, hF, hH⟩
  cut := by
    rintro _ b ⟨front, back, a, rfl, hF, hH⟩ k hk
    -- The cut is in what the first reader reads, or in what the second does.
    by_cases hfront : k < front.length
    · obtain ⟨e, rest, he, hs⟩ := hr.cut hF k hfront
      refine ⟨e, rest, ?_, hs⟩
      rw [List.take_append_of_le_length (Nat.le_of_lt hfront), bind_of_error he]
    · have hback : k - front.length < back.length := by
        rw [List.length_append] at hk
        omega
      obtain ⟨e, rest, he, hs⟩ := (hf a).cut hH (k - front.length) hback
      refine ⟨e, rest, ?_, hs⟩
      rw [List.take_append, List.take_of_length_le (by omega), bind_of_ok (hr.reads hF _), he]
  refuses := by
    intro bytes e rest h
    cases hb : r bytes with
    | error e' middle =>
      rw [bind_of_error hb] at h
      cases h
      refine (hr.refuses hb).imp_right fun ⟨hn, hmore⟩ => ⟨hn, fun more => ?_⟩
      obtain ⟨rest', he⟩ := hmore more
      exact ⟨rest', bind_of_error he⟩
    | ok a middle =>
      rw [bind_of_ok hb] at h
      refine ((hf a).refuses h).imp_right fun ⟨hn, hmore⟩ => ⟨hn, fun more => ?_⟩
      obtain ⟨rest', he⟩ := hmore more
      exact ⟨rest', by rw [bind_of_ok (hr.extend hb more), he]⟩

/-- A value that is refused for being negative, or read on with. -/
theorem Follows.unless {p : Prop} [Decidable p] (hr : ¬p → r.Follows F) (he : p → e.IsNegative) :
    (if p then throw e else r : Reader α).Follows fun bytes a => ¬p ∧ F bytes a := by
  split
  · exact (follows_throw (he ‹p›)).congr fun bytes a => by simp [‹p›]
  · exact (hr ‹¬p›).congr fun bytes a => by simp [‹¬p›]

/-! ### Integers and texts -/

theorem int32_of_short (h : bytes.length < 4) :
    int32 bytes = .error (.truncated 4 bytes.length) bytes := by
  match bytes with
  | [] | [_] | [_, _] | [_, _, _] => rfl
  | _ :: _ :: _ :: _ :: _ =>
    simp only [List.length_cons] at h
    omega

theorem follows_int32 : int32.Follows Format.int32 where
  reads := by
    rintro _ value ⟨a, b, c, d, rfl, rfl⟩ rest
    rfl
  spelled := by
    intro bytes value rest h
    match bytes with
    | [] | [_] | [_, _] | [_, _, _] => cases h
    | a :: b :: c :: d :: _ =>
      cases h
      exact ⟨[a, b, c, d], rfl, a, b, c, d, rfl, rfl⟩
  cut := by
    intro front value hF k hk
    rw [Format.length_int32 hF] at hk
    have hlen : (front.take k).length < 4 := by
      rw [List.length_take]
      omega
    exact ⟨_, _, int32_of_short hlen, 4, _, rfl, hlen⟩
  refuses := by
    intro bytes e rest h
    by_cases hlen : bytes.length < 4
    · rw [int32_of_short hlen] at h
      cases h
      exact .inl ⟨4, _, rfl, hlen⟩
    · match bytes with
      | [] | [_] | [_, _] | [_, _, _] => simp at hlen
      | _ :: _ :: _ :: _ :: _ => cases h

theorem take_of_short {n : Nat} (h : bytes.length < n) :
    take n bytes = .error (.truncated n bytes.length) bytes := by
  have hlen : (bytes.take n).length ≠ n := by
    rw [List.length_take]
    omega
  simp only [take, if_neg hlen]

theorem take_of_le {n : Nat} (h : n ≤ bytes.length) :
    take n bytes = .ok (bytes.take n) (bytes.drop n) := by
  simp only [take, List.length_take, if_pos (Nat.min_eq_left h)]

theorem follows_take (n : Nat) : (take n).Follows (Format.exactly n) where
  reads := by
    rintro front _ ⟨rfl, rfl⟩ rest
    rw [take_of_le (by simp)]
    simp
  spelled := by
    intro bytes content rest h
    by_cases hlen : bytes.length < n
    · rw [take_of_short hlen] at h
      cases h
    · rw [take_of_le (Nat.le_of_not_lt hlen)] at h
      cases h
      exact ⟨bytes.take n, (List.take_append_drop n bytes).symm, rfl, by simp; omega⟩
  cut := by
    rintro front _ ⟨rfl, rfl⟩ k hk
    have hlen : (front.take k).length < front.length := by
      rw [List.length_take]
      omega
    exact ⟨_, _, take_of_short hlen, _, _, rfl, hlen⟩
  refuses := by
    intro bytes e rest h
    by_cases hlen : bytes.length < n
    · rw [take_of_short hlen] at h
      cases h
      exact .inl ⟨n, _, rfl, hlen⟩
    · rw [take_of_le (Nat.le_of_not_lt hlen)] at h
      cases h

theorem text_eq : text = int32 >>= fun count =>
    if count < 0 then throw (.negativeText count)
    else take count.toNat >>= fun bytes => pure (String.ofList (Utf8.decode bytes).dropLast) := rfl

theorem follows_text : text.Follows Format.text := by
  rw [text_eq]
  have hcontent : ∀ count : Int, Follows _ _ := fun count =>
    Follows.unless (p := count < 0) (e := .negativeText count)
      (fun _ => (follows_take count.toNat).bind fun bytes =>
        follows_pure (String.ofList (Utf8.decode bytes).dropLast)) fun h => h
  refine (follows_int32.bind hcontent).congr fun bytes string => ?_
  constructor
  · rintro ⟨count, _, value, rfl, hv, hneg, content, _, _, rfl, ⟨rfl, hlen⟩, rfl, rfl⟩
    have hvalue : (content.length : Int) = value := by omega
    exact ⟨count, content, by simp, hvalue ▸ hv, rfl⟩
  · rintro ⟨count, content, rfl, hc, rfl⟩
    exact ⟨count, content, content.length, rfl, hc, by omega, content, [], content, by simp,
      ⟨rfl, by simp⟩, rfl, rfl⟩

end Reader
end DiagnosticWatch
