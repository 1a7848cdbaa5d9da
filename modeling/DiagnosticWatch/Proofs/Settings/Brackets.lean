/-
# Brackets around a host

A host is checked without the brackets at its ends. With them it is not one of
the texts that stand for this machine any more, but for one case: a bracket
behind an address with a scope is part of the scope.

Key definitions: `Loopback.IsBracket`, `Loopback.Bracketed`.
Key theorems: `Loopback.exists_bare`, `Loopback.isLoopback_iff_of_bare`.
-/
import DiagnosticWatch.Proofs.Settings.Address

namespace DiagnosticWatch
namespace Loopback

/-- A bracket of either kind. -/
def IsBracket (c : Char) : Prop :=
  c = '[' ∨ c = ']'

instance : DecidablePred IsBracket := fun c =>
  inferInstanceAs (Decidable (c = '[' ∨ c = ']'))

/-- The characters begin with a bracket, or they end with one that is not part of a scope. -/
def Bracketed (cs : List Char) : Prop :=
  (∃ c ∈ cs.head?, IsBracket c) ∨ ('%' ∉ cs ∧ ∃ c ∈ cs.getLast?, IsBracket c)

variable {cs : List Char}

/-- What is around a bare host are brackets. -/
theorem exists_bare (cs : List Char) : ∃ front back, cs = front ++ bare cs ++ back ∧
    (∀ c ∈ front, IsBracket c) ∧ ∀ c ∈ back, IsBracket c := by
  let bracket : Char → Bool := fun c => decide (IsBracket c)
  let inner := (cs.dropWhile bracket).reverse
  have htaken : ∀ ds : List Char, ∀ c ∈ ds.takeWhile bracket, IsBracket c := fun ds c hc => by
    simpa [bracket] using List.mem_takeWhile_imp hc
  refine ⟨cs.takeWhile bracket, (inner.takeWhile bracket).reverse, ?_, htaken cs, fun c hc => ?_⟩
  · have hinner : bare cs ++ (inner.takeWhile bracket).reverse = cs.dropWhile bracket := by
      show (inner.dropWhile bracket).reverse ++ _ = _
      rw [← List.reverse_append, List.takeWhile_append_dropWhile, List.reverse_reverse]
    rw [List.append_assoc, hinner, List.takeWhile_append_dropWhile]
  · exact htaken inner c (List.mem_reverse.mp hc)

theorem not_isBracket_of_digit {c : Char} (h : c = '.' ∨ c.isDigit = true) : ¬ IsBracket c := by
  rintro (rfl | rfl) <;> revert h <;> decide

theorem not_isBracket_of_address {c : Char}
    (h : c = ':' ∨ c = '.' ∨ (Token.hexDigit? c).isSome = true) : ¬ IsBracket c := by
  rintro (rfl | rfl) <;> revert h <;> decide

/-- A text that stands for this machine does not begin with a bracket, and has one at all only
in a scope. -/
theorem IsLoopback.not_bracketed (h : IsLoopback cs) : ¬ Bracketed cs := by
  have hnone : (∀ c ∈ cs, ¬ IsBracket c) → ¬ Bracketed cs := by
    rintro hall (⟨c, hc, hb⟩ | ⟨-, c, hc, hb⟩)
    · exact hall c (List.mem_of_mem_head? hc) hb
    · exact hall c (List.mem_of_mem_getLast? hc) hb
  rcases h with rfl | ⟨b, c, d, h⟩ | ⟨address, h, rfl | ⟨scope, -, -, -, rfl⟩⟩
  · exact hnone (by simp [IsBracket])
  · exact hnone fun c hc => not_isBracket_of_digit (h.mem hc)
  · exact hnone fun c hc => not_isBracket_of_address (h.mem hc)
  · rintro (⟨c, hc, hb⟩ | ⟨hno, -⟩)
    · obtain ⟨first, rest, rfl⟩ := List.exists_cons_of_ne_nil (List.ne_nil_of_mem h.colon_mem)
      cases hc
      exact not_isBracket_of_address (h.mem List.mem_cons_self) hb
    · exact hno (by simp)

/-- A host that passes the check is, as it stands, one of the texts that stand for this machine
if and only if there is no bracket around it, unless in a scope. -/
theorem isLoopback_iff_of_bare (h : IsLoopback (bare cs)) : IsLoopback cs ↔ ¬ Bracketed cs := by
  refine ⟨IsLoopback.not_bracketed, fun hb => ?_⟩
  obtain ⟨front, back, hcs, hfront, hback⟩ := exists_bare cs
  have hnil : front = [] := by
    cases front with
    | nil => rfl
    | cons c front => exact absurd (.inl ⟨c, by rw [hcs]; rfl, hfront c List.mem_cons_self⟩) hb
  rw [hnil, List.nil_append] at hcs
  rcases List.eq_nil_or_concat back with rfl | ⟨earlier, last, rfl⟩
  · rwa [hcs, List.append_nil]
  -- The last character is a bracket, so that there is a scope, of which the bracket is part.
  have hpercent : '%' ∈ cs := by
    by_contra hno
    have hlast : last ∈ cs.getLast? := by
      rw [hcs, List.concat_eq_append, ← List.append_assoc, List.getLast?_concat]
      rfl
    exact hb (.inr ⟨hno, last, hlast, hback last (by simp)⟩)
  have hplain : ∀ c, c = '%' ∨ c = '/' → c ∉ earlier.concat last := by
    rintro c (rfl | rfl) hc <;> rcases hback _ hc with hc | hc <;> revert hc <;> decide
  have hmem : '%' ∈ bare cs := by
    rw [hcs] at hpercent
    exact (List.mem_append.mp hpercent).resolve_right (hplain _ (.inl rfl))
  rcases h with h | ⟨b, c, d, h⟩ | ⟨address, h, h' | ⟨scope, hne, hpct, hslash, h'⟩⟩
  · simp [h] at hmem
  · exfalso
    rcases h.mem hmem with hc | hc <;> revert hc <;> decide
  · exfalso
    rw [h'] at hmem
    rcases h.mem hmem with hc | hc | hc <;> revert hc <;> decide
  · refine .inr (.inr ⟨address, h, .inr ⟨scope ++ earlier.concat last, by simp [hne], ?_, ?_, ?_⟩⟩)
    · simpa [hpct] using hplain _ (.inl rfl)
    · simpa [hslash] using hplain _ (.inr rfl)
    · rw [hcs, h', List.append_assoc]
      rfl

end Loopback
end DiagnosticWatch
