/-
# What the textual forms of addresses are

A host is checked by reading it as an address. What is read is what a grammar says, written
down without a reader: fields are joined by separators, an octet is written in decimal
without needless zeros, a group is up to four hexadecimal digits, and a gap stands for the
zero groups that are missing. So a host is on this machine if and only if, without the
brackets around it, it is `localhost`, a text of 127.0.0.0/8 or a text of the IPv6 address 1.

Key definitions: `Loopback.IsIpv4`, `Loopback.IsIpv6`, `Loopback.IsLoopback`.
Key theorems: `Loopback.ipv4_iff`, `Loopback.ipv6_iff`, `Loopback.isHost_iff`.
-/
import DiagnosticWatch.Settings.Loopback
import Mathlib

namespace DiagnosticWatch
namespace Loopback

/-! ### The grammar -/

/-- The text of an IPv4 address with these octets. -/
def IsIpv4 (cs : List Char) (octets : List ℕ) : Prop :=
  octets.length = 4 ∧ (∀ o ∈ octets, o ≤ 255) ∧ cs = ['.'].intercalate (octets.map (Nat.toDigits 10))

/-- Up to four hexadecimal digits of this value. -/
def IsGroup (cs : List Char) (n : ℕ) : Prop :=
  ∃ digits, List.Forall₂ (fun c d => Token.hexDigit? c = some d) cs digits ∧
    1 ≤ cs.length ∧ cs.length ≤ 4 ∧ n = Nat.ofDigits 16 digits.reverse

/-- Groups of these values with colons between them, or nothing at all. -/
def IsGroups (cs : List Char) (groups : List ℕ) : Prop :=
  ∃ parts, List.Forall₂ IsGroup parts groups ∧ cs = [':'].intercalate parts

/-- Groups of these values, where the last two may be written as an IPv4 address. -/
def IsLastGroups (cs : List Char) (groups : List ℕ) : Prop :=
  IsGroups cs groups ∨ ∃ parts quad high a b c d, List.Forall₂ IsGroup parts high ∧
    IsIpv4 quad [a, b, c, d] ∧ cs = [':'].intercalate (parts ++ [quad]) ∧
    groups = high ++ [256 * a + b, 256 * c + d]

/-- The text of an IPv6 address with these groups: all eight, or a gap for those missing. -/
def IsIpv6 (cs : List Char) (groups : List ℕ) : Prop :=
  (IsLastGroups cs groups ∧ groups.length = 8) ∨
  ∃ before after high low, IsGroups before high ∧ IsLastGroups after low ∧
    high.length + low.length < 8 ∧ cs = before ++ ':' :: ':' :: after ∧
    groups = high ++ List.replicate (8 - high.length - low.length) 0 ++ low

/-- The name of this machine, an address in 127.0.0.0/8, or the IPv6 address 1, which may carry
a scope. -/
def IsLoopback (cs : List Char) : Prop :=
  cs = "localhost".toList ∨ (∃ b c d, IsIpv4 cs [127, b, c, d]) ∨
  ∃ address, IsIpv6 address [0, 0, 0, 0, 0, 0, 0, 1] ∧ (cs = address ∨
    ∃ scope, scope ≠ [] ∧ '%' ∉ scope ∧ '/' ∉ scope ∧ cs = address ++ '%' :: scope)

/-! ### Fields -/

theorem fields_eq_splitOn (separator : Char) (cs : List Char) :
    fields separator cs = cs.splitOn separator := by
  induction cs with
  | nil => rfl
  | cons c cs ih =>
    rw [fields, List.splitOn_cons_eq_if_modifyHead, ih]
    simp only [beq_iff_eq]
    split
    · rfl
    · cases h : cs.splitOn separator with
      | nil => exact absurd h (List.splitOn_ne_nil separator cs)
      | cons field more => rfl

/-- Fields without the separator are told apart. -/
theorem fields_intercalate {separator : Char} {parts : List (List Char)}
    (h : ∀ part ∈ parts, separator ∉ part) (hne : parts ≠ []) :
    fields separator ([separator].intercalate parts) = parts := by
  rw [fields_eq_splitOn, List.splitOn_intercalate separator h hne]

theorem intercalate_fields (separator : Char) (cs : List Char) :
    [separator].intercalate (fields separator cs) = cs := by
  rw [fields_eq_splitOn, List.intercalate_splitOn]

/-- What joined fields consist of. -/
theorem mem_intercalate {separator c : Char} {parts : List (List Char)}
    (h : c ∈ [separator].intercalate parts) : c = separator ∨ ∃ part ∈ parts, c ∈ part := by
  induction parts with
  | nil => simp at h
  | cons part parts ih =>
    cases parts with
    | nil => exact .inr ⟨part, List.mem_cons_self, by simpa using h⟩
    | cons next parts =>
      rw [List.intercalate_cons_cons, List.mem_append, List.mem_append, List.mem_singleton] at h
      rcases h with (h | h) | h
      · exact .inr ⟨part, List.mem_cons_self, h⟩
      · exact .inl h
      · exact (ih h).imp_right fun ⟨p, hp, hc⟩ => ⟨p, List.mem_cons_of_mem _ hp, hc⟩

theorem mem_intercalate_of_mem {separator c : Char} {parts : List (List Char)} {part : List Char}
    (hpart : part ∈ parts) (hc : c ∈ part) : c ∈ [separator].intercalate parts := by
  induction parts with
  | nil => cases hpart
  | cons first parts ih =>
    cases parts with
    | nil =>
      obtain rfl := List.mem_singleton.mp hpart
      simpa using hc
    | cons next parts =>
      rw [List.intercalate_cons_cons, List.mem_append, List.mem_append]
      rcases List.mem_cons.mp hpart with rfl | hpart
      · exact .inl (.inl hc)
      · exact .inr (ih hpart)

/-- Two fields have a separator between them. -/
theorem separator_mem_intercalate (separator : Char) {parts : List (List Char)}
    (h : 2 ≤ parts.length) : separator ∈ [separator].intercalate parts := by
  match parts with
  | first :: next :: parts =>
    rw [List.intercalate_cons_cons]
    simp

theorem mapM_iff {α β : Type} {f : α → Option β} {as : List α} {bs : List β} :
    as.mapM f = some bs ↔ List.Forall₂ (fun a b => f a = some b) as bs := by
  induction as generalizing bs with
  | nil => simp [eq_comm]
  | cons a as ih =>
    rw [List.mapM_cons, List.forall₂_cons_left_iff]
    simp only [Option.bind_eq_bind, Option.bind_eq_some_iff, Option.pure_def, Option.some_inj, ih]
    constructor
    · rintro ⟨b, hb, bs', hbs, rfl⟩
      exact ⟨b, bs', hb, hbs, rfl⟩
    · rintro ⟨b, bs', hb, hbs, rfl⟩
      exact ⟨b, hb, bs', hbs, rfl⟩

theorem exists_of_forall₂ {α β : Type} {R : α → β → Prop} {as : List α} {bs : List β}
    (h : List.Forall₂ R as bs) {a : α} (ha : a ∈ as) : ∃ b, R a b := by
  obtain ⟨i, hi, rfl⟩ := List.getElem_of_mem ha
  exact ⟨_, h.get hi (h.length_eq ▸ hi)⟩

/-! ### IPv4 -/

/-- A row of digits without a needless zero is how its value is written. -/
theorem toDigits_ofDigits {cs : List Char} (hne : cs ≠ []) (hd : ∀ c ∈ cs, c.isDigit = true)
    (hz : cs.length = 1 ∨ cs.head? ≠ some '0') : Nat.toDigits 10 (Numeral.ofDigits cs) = cs := by
  have hdigit (c : Char) (hc : c.isDigit = true) :
      c.toNat - '0'.toNat < 10 ∧ Nat.digitChar (c.toNat - '0'.toNat) = c := by
    obtain ⟨hlow, hhigh⟩ := Char.isDigit_iff_toNat.mp hc
    have hzero : '0'.toNat = 48 := rfl
    have hnine : '9'.toNat = 57 := rfl
    refine ⟨by omega, Char.toNat_inj.mp ?_⟩
    rw [Nat.toNat_digitChar_of_lt_ten (by omega)]
    omega
  -- one digit more is one digit behind those of the value so far, which is not zero
  have hmore (ds : List Char) (hds : ds ≠ []) (hall : ∀ c ∈ ds, c.isDigit = true)
      (hhead : ds.head? ≠ some '0') :
      0 < Numeral.ofDigits ds ∧ Nat.toDigits 10 (Numeral.ofDigits ds) = ds := by
    induction ds using List.reverseRecOn with
    | nil => exact absurd rfl hds
    | append_singleton ds c ih =>
      obtain ⟨hlt, hchar⟩ := hdigit c (hall c (by simp))
      have hstep : Numeral.ofDigits (ds ++ [c]) =
          10 * Numeral.ofDigits ds + (c.toNat - '0'.toNat) := by
        simp [Numeral.ofDigits]
      rw [hstep]
      by_cases hds : ds = []
      · subst hds
        have hc : c ≠ '0' := fun h => hhead (by simp [h])
        have hpos : c.toNat ≠ '0'.toNat := fun h => hc (Char.toNat_inj.mp h)
        have hle := (Char.isDigit_iff_toNat.mp (hall c (by simp))).1
        have hzero : Numeral.ofDigits [] = 0 := rfl
        rw [hzero, Nat.mul_zero, Nat.zero_add, Nat.toDigits_of_lt_base hlt, hchar]
        exact ⟨by omega, rfl⟩
      · obtain ⟨hpos, hih⟩ := ih hds (fun d hd => hall d (by simp [hd])) (by
          cases ds with
          | nil => exact absurd rfl hds
          | cons d ds => exact hhead)
        refine ⟨by omega, ?_⟩
        rw [← Nat.toDigits_append_toDigits (by decide) hpos hlt, hih, Nat.toDigits_of_lt_base hlt,
          hchar]
  rcases hz with hlen | hhead
  · obtain ⟨c, rfl⟩ := List.length_eq_one_iff.mp hlen
    obtain ⟨hlt, hchar⟩ := hdigit c (hd c (by simp))
    have hone : Numeral.ofDigits [c] = c.toNat - '0'.toNat := by simp [Numeral.ofDigits]
    rw [hone, Nat.toDigits_of_lt_base hlt, hchar]
  · exact (hmore cs hne hd hhead).2

theorem octet_toDigits : ∀ n : Fin 256, octet? (Nat.toDigits 10 n) = some n.val := by
  decide +kernel

theorem octet_iff {cs : List Char} {n : ℕ} :
    octet? cs = some n ↔ n ≤ 255 ∧ cs = Nat.toDigits 10 n := by
  constructor
  · intro h
    unfold octet? at h
    dsimp only at h
    split_ifs at h with hc
    obtain ⟨hd, hlen, -, hz, hle⟩ := hc
    cases h
    refine ⟨hle, (toDigits_ofDigits (List.length_pos_iff.mp hlen) ?_ hz).symm⟩
    exact List.all_eq_true.mp hd
  · rintro ⟨hle, rfl⟩
    exact octet_toDigits ⟨n, Nat.lt_succ_of_le hle⟩

theorem not_mem_toDigits {c : Char} (hc : c.isDigit = false) (n : ℕ) : c ∉ Nat.toDigits 10 n := by
  intro h
  rw [Nat.isDigit_of_mem_toDigits (by decide) (by decide) h] at hc
  cases hc

theorem forall₂_octet {parts : List (List Char)} {octets : List ℕ} :
    List.Forall₂ (fun cs n => octet? cs = some n) parts octets ↔
      (∀ o ∈ octets, o ≤ 255) ∧ parts = octets.map (Nat.toDigits 10) := by
  induction octets generalizing parts with
  | nil => simp
  | cons o octets ih =>
    rw [List.forall₂_cons_right_iff]
    simp only [ih, List.forall_mem_cons, List.map_cons]
    simp only [octet_iff]
    constructor
    · rintro ⟨cs, parts, ⟨ho, rfl⟩, ⟨hos, rfl⟩, rfl⟩
      exact ⟨⟨ho, hos⟩, rfl⟩
    · rintro ⟨⟨ho, hos⟩, rfl⟩
      exact ⟨_, _, ⟨ho, rfl⟩, ⟨hos, rfl⟩, rfl⟩

/-- What is read as an IPv4 address is the text of one. -/
theorem ipv4_iff {cs : List Char} {octets : List ℕ} : ipv4? cs = some octets ↔ IsIpv4 cs octets := by
  unfold ipv4? IsIpv4
  dsimp only
  constructor
  · intro h
    split_ifs at h with hlen
    obtain ⟨hle, hparts⟩ := forall₂_octet.mp (mapM_iff.mp h)
    refine ⟨?_, hle, ?_⟩
    · rw [← hlen, hparts, List.length_map]
    · rw [← hparts, intercalate_fields]
  · rintro ⟨hlen, hle, rfl⟩
    have hfields : fields '.' (['.'].intercalate (octets.map (Nat.toDigits 10))) =
        octets.map (Nat.toDigits 10) := by
      refine fields_intercalate (fun part hpart => ?_) ?_
      · obtain ⟨o, -, rfl⟩ := List.mem_map.mp hpart
        exact not_mem_toDigits (by decide) o
      · rw [← List.length_pos_iff, List.length_map, hlen]
        decide
    rw [hfields, List.length_map, if_pos hlen]
    exact mapM_iff.mpr (forall₂_octet.mpr ⟨hle, rfl⟩)

/-- The characters of an IPv4 address. -/
theorem IsIpv4.mem {cs : List Char} {octets : List ℕ} (h : IsIpv4 cs octets) {c : Char}
    (hc : c ∈ cs) : c = '.' ∨ c.isDigit = true := by
  obtain ⟨-, -, rfl⟩ := h
  refine (mem_intercalate hc).imp_right ?_
  rintro ⟨part, hpart, hc⟩
  obtain ⟨o, -, rfl⟩ := List.mem_map.mp hpart
  exact Nat.isDigit_of_mem_toDigits (by decide) (by decide) hc

theorem IsIpv4.colon_notMem {cs : List Char} {octets : List ℕ} (h : IsIpv4 cs octets) : ':' ∉ cs := by
  intro hc
  rcases h.mem hc with hc | hc <;> revert hc <;> decide

theorem IsIpv4.dot_mem {cs : List Char} {octets : List ℕ} (h : IsIpv4 cs octets) : '.' ∈ cs := by
  obtain ⟨hlen, -, rfl⟩ := h
  refine separator_mem_intercalate '.' ?_
  rw [List.length_map, hlen]
  decide

/-! ### Groups -/

theorem hexDigit_colon : Token.hexDigit? ':' = none := by decide

theorem foldl_eq_ofDigits (base : ℕ) (digits : List ℕ) :
    digits.foldl (fun n d => base * n + d) 0 = Nat.ofDigits base digits.reverse := by
  rw [List.foldl_eq_foldr_reverse, Nat.ofDigits_eq_foldr]
  simp only [add_comm, Nat.cast_id]

theorem group_iff {cs : List Char} {n : ℕ} : group? cs = some n ↔ IsGroup cs n := by
  unfold group? IsGroup
  simp only [Option.bind_eq_bind, Option.bind_eq_some_iff, mapM_iff]
  refine exists_congr fun digits => ?_
  refine and_congr_right fun h => ?_
  rw [h.length_eq, foldl_eq_ofDigits]
  split_ifs with hlen
  · simp [hlen, eq_comm]
  · exact iff_of_false nofun fun h => hlen ⟨h.1, h.2.1⟩

theorem IsGroup.ne_nil {cs : List Char} {n : ℕ} (h : IsGroup cs n) : cs ≠ [] := by
  obtain ⟨_, -, hlen, -⟩ := h
  exact List.length_pos_iff.mp hlen

/-- The characters of a group. -/
theorem IsGroup.mem {cs : List Char} {n : ℕ} (h : IsGroup cs n) {c : Char} (hc : c ∈ cs) :
    (Token.hexDigit? c).isSome = true := by
  obtain ⟨digits, hd, -⟩ := h
  obtain ⟨d, hd⟩ := exists_of_forall₂ hd hc
  rw [hd]
  rfl

/-- No group holds a character that is no digit. -/
theorem not_mem_of_groups {parts : List (List Char)} {groups : List ℕ}
    (h : List.Forall₂ IsGroup parts groups) {c : Char} (hc : Token.hexDigit? c = none) :
    ∀ part ∈ parts, c ∉ part := by
  intro part hpart hmem
  obtain ⟨n, hn⟩ := exists_of_forall₂ h hpart
  have hsome := hn.mem hmem
  rw [hc] at hsome
  cases hsome

theorem forall₂_group {parts : List (List Char)} {groups : List ℕ} :
    List.Forall₂ (fun cs n => group? cs = some n) parts groups ↔
      List.Forall₂ IsGroup parts groups := by
  simp only [group_iff]

theorem groups_iff {cs : List Char} {groups : List ℕ} :
    groups? cs = some groups ↔ IsGroups cs groups := by
  unfold groups? IsGroups
  constructor
  · intro h
    split_ifs at h with he
    · cases h
      exact ⟨[], .nil, List.isEmpty_iff.mp he⟩
    · exact ⟨fields ':' cs, forall₂_group.mp (mapM_iff.mp h), (intercalate_fields ':' cs).symm⟩
  · rintro ⟨parts, hparts, rfl⟩
    by_cases hne : parts = []
    · subst hne
      cases hparts
      rfl
    · have hfields := fields_intercalate (not_mem_of_groups hparts hexDigit_colon) hne
      have hsome : [':'].intercalate parts ≠ [] := fun hnil => by
        rw [hnil] at hfields
        have hmem : [] ∈ parts := by
          rw [← hfields]
          exact List.mem_singleton_self []
        obtain ⟨n, hn⟩ := exists_of_forall₂ hparts hmem
        exact hn.ne_nil rfl
      rw [if_neg (mt List.isEmpty_iff.mp hsome), hfields]
      exact mapM_iff.mpr (forall₂_group.mpr hparts)

/-- The characters of groups. -/
theorem IsGroups.mem {cs : List Char} {groups : List ℕ} (h : IsGroups cs groups) {c : Char}
    (hc : c ∈ cs) : c = ':' ∨ (Token.hexDigit? c).isSome = true := by
  obtain ⟨parts, hparts, rfl⟩ := h
  refine (mem_intercalate hc).imp_right ?_
  rintro ⟨part, hpart, hc⟩
  obtain ⟨n, hn⟩ := exists_of_forall₂ hparts hpart
  exact hn.mem hc

theorem lastGroups_iff {cs : List Char} {groups : List ℕ} :
    lastGroups? cs = some groups ↔ IsLastGroups cs groups := by
  unfold lastGroups? IsLastGroups
  dsimp only
  constructor
  · intro h
    split at h
    · rename_i a b c d hquad
      obtain ⟨quad, hlast, hquad⟩ := Option.bind_eq_some_iff.mp hquad
      simp only [Option.bind_eq_bind, Option.bind_eq_some_iff, Option.pure_def, Option.some_inj] at h
      obtain ⟨high, hhigh, rfl⟩ := h
      refine .inr ⟨_, quad, high, a, b, c, d, forall₂_group.mp (mapM_iff.mp hhigh),
        ipv4_iff.mp hquad, ?_, rfl⟩
      rw [List.dropLast_append_getLast? quad hlast, intercalate_fields]
    · exact .inl (groups_iff.mp h)
  · rintro (h | ⟨parts, quad, high, a, b, c, d, hparts, hquad, rfl, rfl⟩)
    · -- the last of some groups is no IPv4 address, for want of a dot
      have hnone : (fields ':' cs).getLast?.bind ipv4? = none := by
        refine Option.bind_eq_none_iff.mpr fun quad hlast => ?_
        refine Option.eq_none_iff_forall_ne_some.mpr fun octets hquad => ?_
        have hdot : '.' ∈ cs := by
          rw [← intercalate_fields ':' cs]
          exact mem_intercalate_of_mem (List.mem_of_getLast? hlast) (ipv4_iff.mp hquad).dot_mem
        rcases h.mem hdot with hc | hc <;> revert hc <;> decide
      rw [hnone]
      exact groups_iff.mpr h
    · have hcolon : ∀ part ∈ parts ++ [quad], ':' ∉ part := by
        intro part hpart
        rcases List.mem_append.mp hpart with hpart | hpart
        · exact not_mem_of_groups hparts hexDigit_colon part hpart
        · obtain rfl := List.mem_singleton.mp hpart
          exact hquad.colon_notMem
      rw [fields_intercalate hcolon (by simp), List.getLast?_concat, Option.bind_some,
        ipv4_iff.mpr hquad]
      simp only [List.dropLast_concat, mapM_iff.mpr (forall₂_group.mpr hparts)]
      rfl

/-- The characters of an IPv6 address behind its gap. -/
theorem IsLastGroups.mem {cs : List Char} {groups : List ℕ} (h : IsLastGroups cs groups) {c : Char}
    (hc : c ∈ cs) : c = ':' ∨ c = '.' ∨ (Token.hexDigit? c).isSome = true := by
  rcases h with h | ⟨parts, quad, high, a, b, e, f, hparts, hquad, rfl, -⟩
  · exact (h.mem hc).imp_right .inr
  · refine (mem_intercalate hc).imp_right ?_
    rintro ⟨part, hpart, hmem⟩
    rcases List.mem_append.mp hpart with hpart | hpart
    · obtain ⟨n, hn⟩ := exists_of_forall₂ hparts hpart
      exact .inr (hn.mem hmem)
    · obtain rfl := List.mem_singleton.mp hpart
      refine (hquad.mem hmem).imp_right fun hd => ?_
      obtain ⟨hlow, hhigh⟩ := Char.isDigit_iff_toNat.mp hd
      have hdigit : '0' ≤ c ∧ c ≤ '9' := ⟨hlow, hhigh⟩
      rw [Token.hexDigit?, if_pos hdigit]
      rfl

/-! ### The gap -/

theorem splitAtGap_sound {cs before after : List Char} (h : splitAtGap? cs = some (before, after)) :
    cs = before ++ ':' :: ':' :: after := by
  induction cs using splitAtGap?.induct generalizing before with
  | case1 => cases h
  | case2 cs =>
    rw [splitAtGap?] at h
    cases h
    rfl
  | case3 c cs hne ih =>
    rw [splitAtGap?] at h
    · obtain ⟨⟨before', after'⟩, hrest, heq⟩ := Option.map_eq_some_iff.mp h
      cases heq
      rw [ih hrest]
      rfl
    · exact hne

/-- What stands in front of a gap. -/
def ahead (front : List Char) (halves : List Char × List Char) : List Char × List Char :=
  (front ++ halves.1, halves.2)

theorem splitAtGap_append {front : List Char} (h : ':' ∉ front) (cs : List Char) :
    splitAtGap? (front ++ cs) = (splitAtGap? cs).map (ahead front) := by
  induction front with
  | nil =>
    show splitAtGap? cs = (splitAtGap? cs).map (ahead [])
    cases splitAtGap? cs <;> rfl
  | cons c front ih =>
    obtain ⟨hc, hfront⟩ := not_or.mp (mt List.mem_cons.mpr h)
    rw [List.cons_append, splitAtGap?, ih hfront, Option.map_map]
    · rfl
    · intro cs' hcs
      cases hcs
      exact absurd rfl hc

theorem splitAtGap_colon {c : Char} (hc : c ≠ ':') (cs : List Char) :
    splitAtGap? (':' :: c :: cs) = (splitAtGap? (c :: cs)).map (ahead [':']) := by
  rw [splitAtGap?]
  · rfl
  · intro cs' _ hcs
    exact hc (List.cons.inj hcs).1

/-- Fields that are not empty leave no gap between them. -/
theorem splitAtGap_intercalate {parts : List (List Char)}
    (h : ∀ part ∈ parts, part ≠ [] ∧ ':' ∉ part) (cs : List Char) :
    splitAtGap? ([':'].intercalate parts ++ cs) =
      (splitAtGap? cs).map (ahead ([':'].intercalate parts)) := by
  induction parts with
  | nil => exact splitAtGap_append List.not_mem_nil cs
  | cons part parts ih =>
    obtain ⟨-, hpart⟩ := h part List.mem_cons_self
    have ih := ih fun p hp => h p (List.mem_cons_of_mem _ hp)
    cases parts with
    | nil =>
      rw [List.intercalate_singleton]
      exact splitAtGap_append hpart cs
    | cons next parts =>
      obtain ⟨hne, hnext⟩ := h next (List.mem_cons_of_mem _ List.mem_cons_self)
      obtain ⟨c, next, rfl⟩ := List.exists_cons_of_ne_nil hne
      obtain ⟨rest, hrest⟩ : ∃ rest, [':'].intercalate ((c :: next) :: parts) = c :: rest := by
        cases parts with
        | nil => exact ⟨next, List.intercalate_singleton⟩
        | cons p parts => exact ⟨_, List.intercalate_cons_cons⟩
      have hc : c ≠ ':' := fun h => hnext (h ▸ List.mem_cons_self)
      rw [List.intercalate_cons_cons, List.append_assoc, List.append_assoc, splitAtGap_append hpart]
      rw [hrest] at ih ⊢
      rw [List.cons_append, List.nil_append, List.cons_append, splitAtGap_colon hc, ← List.cons_append,
        ih, Option.map_map, Option.map_map]
      refine congrArg (Option.map · _) (funext fun halves => ?_)
      simp [ahead]

/-- Groups leave no gap between them. -/
theorem IsGroups.splitAtGap {front : List Char} {groups : List ℕ} (h : IsGroups front groups)
    (cs : List Char) : splitAtGap? (front ++ cs) = (splitAtGap? cs).map (ahead front) := by
  obtain ⟨parts, hparts, rfl⟩ := h
  refine splitAtGap_intercalate (fun part hpart => ?_) cs
  obtain ⟨n, hn⟩ := exists_of_forall₂ hparts hpart
  exact ⟨hn.ne_nil, not_mem_of_groups hparts hexDigit_colon part hpart⟩

theorem IsLastGroups.splitAtGap {cs : List Char} {groups : List ℕ} (h : IsLastGroups cs groups) :
    splitAtGap? cs = none := by
  rcases h with h | ⟨parts, quad, high, a, b, c, d, hparts, hquad, rfl, -⟩
  · have hgap := h.splitAtGap []
    rwa [List.append_nil] at hgap
  · have hgap := @splitAtGap_intercalate (parts ++ [quad]) (fun part hpart => ?_) []
    · rwa [List.append_nil] at hgap
    · rcases List.mem_append.mp hpart with hpart | hpart
      · obtain ⟨n, hn⟩ := exists_of_forall₂ hparts hpart
        exact ⟨hn.ne_nil, not_mem_of_groups hparts hexDigit_colon part hpart⟩
      · obtain rfl := List.mem_singleton.mp hpart
        exact ⟨List.ne_nil_of_mem hquad.dot_mem, hquad.colon_notMem⟩

/-! ### IPv6 -/

/-- What is read as an IPv6 address is the text of one. -/
theorem ipv6_iff {cs : List Char} {groups : List ℕ} :
    ipv6? cs = some groups ↔ IsIpv6 cs groups := by
  unfold ipv6? IsIpv6
  constructor
  · intro h
    split at h
    · rename_i before after hgap
      simp only [Option.bind_eq_bind, Option.bind_eq_some_iff] at h
      obtain ⟨high, hhigh, low, hlow, h⟩ := h
      split_ifs at h with hlen
      cases h
      exact .inr ⟨before, after, high, low, groups_iff.mp hhigh, lastGroups_iff.mp hlow, hlen,
        splitAtGap_sound hgap, rfl⟩
    · split at h
      · rename_i all hall
        split_ifs at h with hlen
        cases h
        exact .inl ⟨lastGroups_iff.mp hall, hlen⟩
      · cases h
  · rintro (⟨hall, hlen⟩ | ⟨before, after, high, low, hhigh, hlow, hlen, rfl, rfl⟩)
    · rw [hall.splitAtGap, lastGroups_iff.mpr hall]
      exact if_pos hlen
    · have hgap : splitAtGap? (before ++ ':' :: ':' :: after) = some (before, after) := by
        rw [hhigh.splitAtGap, splitAtGap?]
        simp [ahead]
      rw [hgap]
      simp only [groups_iff.mpr hhigh, lastGroups_iff.mpr hlow, Option.bind_eq_bind,
        Option.bind_some]
      exact if_pos hlen

/-- The characters of an IPv6 address. -/
theorem IsIpv6.mem {cs : List Char} {groups : List ℕ} (h : IsIpv6 cs groups) {c : Char}
    (hc : c ∈ cs) : c = ':' ∨ c = '.' ∨ (Token.hexDigit? c).isSome = true := by
  rcases h with ⟨h, -⟩ | ⟨before, after, high, low, hhigh, hlow, -, rfl, -⟩
  · exact h.mem hc
  · simp only [List.mem_append, List.mem_cons] at hc
    rcases hc with hc | rfl | rfl | hc
    · exact (hhigh.mem hc).imp_right .inr
    · exact .inl rfl
    · exact .inl rfl
    · exact hlow.mem hc

theorem IsIpv6.colon_mem {cs : List Char} {groups : List ℕ} (h : IsIpv6 cs groups) : ':' ∈ cs := by
  rcases h with ⟨⟨parts, hparts, rfl⟩ | ⟨parts, quad, high, a, b, c, d, hparts, -, rfl, rfl⟩, hlen⟩ |
    ⟨before, after, high, low, -, -, -, rfl, -⟩
  · refine separator_mem_intercalate ':' ?_
    rw [hparts.length_eq, hlen]
    decide
  · refine separator_mem_intercalate ':' ?_
    simp only [List.length_append, List.length_cons, List.length_nil] at hlen ⊢
    rw [hparts.length_eq]
    omega
  · simp

/-! ### Hosts -/

/-- An address and its scope are told apart. -/
theorem unscoped_iff {cs address : List Char} : unscoped? cs = some address ↔
    '%' ∉ address ∧ (cs = address ∨ ∃ scope, scope ≠ [] ∧ '%' ∉ scope ∧ '/' ∉ scope ∧
      cs = address ++ '%' :: scope) := by
  have hpred {front : List Char} (h : '%' ∉ front) : ∀ c ∈ front, decide (c ≠ '%') = true :=
    fun c hc => by simp [ne_of_mem_of_not_mem hc h]
  unfold unscoped?
  simp only [List.span_eq_takeWhile_dropWhile]
  constructor
  · intro h
    have hsplit := List.takeWhile_append_dropWhile (p := fun c => decide (c ≠ '%')) (l := cs)
    have hfront : '%' ∉ cs.takeWhile fun c => decide (c ≠ '%') := fun hmem => by
      simpa using List.mem_takeWhile_imp hmem
    split at h
    · rename_i htail
      cases h
      rw [htail, List.append_nil] at hsplit
      exact ⟨hfront, .inl hsplit.symm⟩
    · rename_i c scope htail
      split_ifs at h with hbad
      cases h
      simp only [not_or, List.isEmpty_iff, List.contains_iff_mem] at hbad
      have hc : c = '%' := by
        have hhead := List.head?_dropWhile_not (fun c => decide (c ≠ '%')) cs
        rw [htail] at hhead
        simpa using hhead
      rw [htail, hc] at hsplit
      exact ⟨hfront, .inr ⟨scope, hbad.1, hbad.2.1, hbad.2.2, hsplit.symm⟩⟩
  · rintro ⟨hfront, rfl | ⟨scope, hne, hpercent, hslash, rfl⟩⟩
    · rw [List.takeWhile_eq_self_iff.mpr (hpred hfront), List.dropWhile_eq_nil_iff.mpr (hpred hfront)]
    · rw [List.takeWhile_append_of_pos (hpred hfront), List.dropWhile_append_of_pos (hpred hfront)]
      simp [hne, hpercent, hslash]

theorem isAddress_iff {cs : List Char} : isAddress cs = true ↔
    (∃ b c d, IsIpv4 cs [127, b, c, d]) ∨
    ∃ address, IsIpv6 address [0, 0, 0, 0, 0, 0, 0, 1] ∧ (cs = address ∨
      ∃ scope, scope ≠ [] ∧ '%' ∉ scope ∧ '/' ∉ scope ∧ cs = address ++ '%' :: scope) := by
  have hsix : (unscoped? cs).bind ipv6? = some [0, 0, 0, 0, 0, 0, 0, 1] ↔
      ∃ address, IsIpv6 address [0, 0, 0, 0, 0, 0, 0, 1] ∧ (cs = address ∨
        ∃ scope, scope ≠ [] ∧ '%' ∉ scope ∧ '/' ∉ scope ∧ cs = address ++ '%' :: scope) := by
    rw [Option.bind_eq_some_iff]
    refine exists_congr fun address => ?_
    rw [ipv6_iff, unscoped_iff, and_comm, and_congr_right_iff]
    refine fun h => and_iff_right fun hmem => ?_
    rcases h.mem hmem with hc | hc | hc <;> revert hc <;> decide
  unfold isAddress
  cases hfour : ipv4? cs with
  | none =>
    simp only [decide_eq_true_eq, hsix]
    refine (or_iff_right ?_).symm
    rintro ⟨b, c, d, h⟩
    rw [ipv4_iff.mpr h] at hfour
    cases hfour
  | some octets =>
    have hno : ¬ ∃ address, IsIpv6 address [0, 0, 0, 0, 0, 0, 0, 1] ∧ (cs = address ∨
        ∃ scope, scope ≠ [] ∧ '%' ∉ scope ∧ '/' ∉ scope ∧ cs = address ++ '%' :: scope) := by
      rintro ⟨address, h, rfl | ⟨scope, -, -, -, rfl⟩⟩
      · exact (ipv4_iff.mp hfour).colon_notMem h.colon_mem
      · exact (ipv4_iff.mp hfour).colon_notMem (List.mem_append_left _ h.colon_mem)
    rw [or_iff_left hno, decide_eq_true_eq]
    simp only [← ipv4_iff, hfour, Option.some_inj]
    obtain ⟨a, b, c, d, rfl⟩ := List.length_eq_four.mp (ipv4_iff.mp hfour).1
    simp

/-- A host is on this machine if it is one of the texts that say so, brackets around it aside. -/
theorem isHost_iff {host : String} : isHost host = true ↔ IsLoopback (bare host.toList) := by
  unfold isHost IsLoopback
  simp only [Bool.or_eq_true, decide_eq_true_eq, isAddress_iff]

example : ["[::1%eth0]", "0:0:0:0:0:0:0.0.0.1", "127.255.255.255"].all isHost = true := by cbv

example : ["::ffff:127.0.0.1", "127.0.0.001", ":::1", "::1%"].any isHost = false := by cbv

end Loopback
end DiagnosticWatch
