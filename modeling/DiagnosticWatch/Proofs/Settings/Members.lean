/-
# The members of settings files

Laid over one another, objects have the members of both, and where both have one that of the
upper one counts. What is read from a file holds no NaN anywhere: every number in it has a
value.

Key definitions: `Json.Members.last?`, `Json.IsProper`.
Key theorems: `Json.Members.get_overlay`, `Json.Members.last_overlay`,
`Json.isProper_of_ofBytes`.
-/
import DiagnosticWatch.Json.Reader
import DiagnosticWatch.Proofs.Number.Value

namespace DiagnosticWatch
namespace Json

/-! ### Members over members -/

namespace Members

/-- The value that a member is given last. -/
def last? (members : Members) (key : String) : Option Json :=
  members.reverse.lookup key

variable {members upper : Members} {key name : String} {value : Json}

theorem lookup_cons (m : String × Json) : (m :: members : Members).lookup name =
    if name = m.1 then some m.2 else members.lookup name := by
  rw [List.lookup]
  by_cases h : name = m.1
  · simp [h]
  · simp [h, beq_false_of_ne h]

theorem lookup_of_absent (h : members.any (·.1 = key) = false) : members.lookup key = none := by
  rw [List.lookup_eq_none_iff]
  intro m hm
  have hne : ¬ m.1 = key := by simpa using List.any_eq_false.mp h m hm
  exact bne_iff_ne.mpr (Ne.symm hne)

/-- Setting a member where it is changes it alone. -/
theorem lookup_map (h : members.any (·.1 = key) = true) :
    (members.map fun m => if m.1 = key then (key, value) else m).lookup name =
      if name = key then some value else members.lookup name := by
  have hother (hname : name ≠ key) (ms : Members) :
      (ms.map fun m => if m.1 = key then (key, value) else m).lookup name = ms.lookup name := by
    induction ms with
    | nil => rfl
    | cons m ms ih =>
      rw [List.map_cons, lookup_cons, lookup_cons, ih]
      by_cases hm : m.1 = key
      · rw [if_pos hm, if_neg hname, if_neg (hm ▸ hname)]
      · rw [if_neg hm]
  by_cases hname : name = key
  · subst hname
    rw [if_pos rfl]
    induction members with
    | nil => cases h
    | cons m members ih =>
      rw [List.map_cons, lookup_cons]
      by_cases hm : m.1 = name
      · rw [if_pos hm, if_pos rfl]
      · rw [if_neg hm, if_neg (Ne.symm hm)]
        refine ih ?_
        simpa [hm] using h
  · rw [if_neg hname, hother hname]

theorem last_concat (m : String × Json) : (members ++ [m] : Members).last? name =
    if name = m.1 then some m.2 else members.last? name := by
  rw [last?, List.reverse_concat, lookup_cons]
  rfl

theorem get_put : (members.put key value).get? name =
    if name = key then some value else members.get? name := by
  unfold put get?
  split
  · rename_i h
    exact lookup_map h
  · rename_i h
    have habsent := lookup_of_absent (Bool.eq_false_iff.mpr h)
    rw [List.lookup_append, lookup_cons]
    by_cases hname : name = key
    · rw [hname, habsent]
      simp
    · simp [hname]

theorem last_put : (members.put key value).last? name =
    if name = key then some value else members.last? name := by
  unfold put last?
  split
  · rename_i h
    rw [← List.map_reverse]
    exact lookup_map (by rwa [List.any_reverse])
  · exact last_concat (key, value)

/-- The members of the upper object count. -/
theorem get_overlay :
    (members.overlay upper).get? name = (upper.last? name).or (members.get? name) := by
  unfold overlay
  induction upper using List.reverseRecOn with
  | nil => rfl
  | append_singleton upper m ih =>
    rw [List.foldl_concat, get_put, ih, last_concat]
    split <;> rfl

theorem last_overlay :
    (members.overlay upper).last? name = (upper.last? name).or (members.last? name) := by
  unfold overlay
  induction upper using List.reverseRecOn with
  | nil => rfl
  | append_singleton upper m ih =>
    rw [List.foldl_concat, last_put, ih, last_concat]
    split <;> rfl

end Members

/-! ### What is read is proper -/

/-- Every number in a value stands for something. -/
inductive IsProper : Json → Prop
  | null : IsProper .null
  | number {n : Number} (h : n.value?.isSome = true) : IsProper (.number n)
  | text (s : String) : IsProper (.text s)
  | list {items : List Json} (h : ∀ v ∈ items, IsProper v) : IsProper (.list items)
  | object {members : Members} (h : ∀ m ∈ members, IsProper m.2) : IsProper (.object members)

/-- Every number in the members stands for something. -/
def Members.IsProper (members : Members) : Prop := ∀ m ∈ members, m.2.IsProper

theorem Members.IsProper.put {members : Members} {key : String} {value : Json}
    (h : members.IsProper) (hv : value.IsProper) : (members.put key value).IsProper := by
  unfold Members.put
  intro m hm
  split at hm
  · obtain ⟨m', hm', rfl⟩ := List.mem_map.mp hm
    split
    · exact hv
    · exact h m' hm'
  · rcases List.mem_append.mp hm with hm | hm
    · exact h m hm
    · rw [List.mem_singleton.mp hm]
      exact hv

/-- What has been read of a container is proper. -/
def Container.IsProper : Container → Prop
  | .list items => ∀ v ∈ items, v.IsProper
  | .object members _ => members.IsProper

/-- What has been read in front of what may come next is proper. -/
def Expected.IsProper : Expected → Prop
  | .value _ => True
  | .key members _ | .colon members _ => members.IsProper
  | .separator v => v.IsProper

/-- All that has been read is proper. -/
structure Reading.IsProper (r : Reading) : Prop where
  containers : ∀ c ∈ r.containers, c.IsProper
  expected : r.expected.IsProper

variable {limits : Limits} {r r' : Reading} {token : Token}

theorem Reading.isProper_of_value {containers : List Container}
    (hl : ∀ n m, limits.number n = some m → m.value?.isSome = true)
    (hc : ∀ c ∈ containers, c.IsProper) (h : Reading.value? limits containers token = some r') :
    r'.IsProper := by
  have hopen (container : Container) (expected : Expected) (h' : container.IsProper)
      (he : expected.IsProper) (h : Reading.open? limits containers container expected = some r') :
      r'.IsProper := by
    unfold Reading.open? at h
    split_ifs at h
    cases h
    exact ⟨List.forall_mem_cons.mpr ⟨h', hc⟩, he⟩
  cases token with
  | null =>
    cases h
    exact ⟨hc, .null⟩
  | text s =>
    cases h
    exact ⟨hc, .text s⟩
  | truth b =>
    cases h
    exact ⟨hc, .number rfl⟩
  | numeral n =>
    obtain ⟨m, hm, rfl⟩ := Option.map_eq_some_iff.mp h
    exact ⟨hc, .number (hl n m hm)⟩
  | openList => exact hopen (.list []) (.value true) (fun _ h => nomatch h) trivial h
  | openObject => exact hopen (.object [] "") (.key [] true) (fun _ h => nomatch h) nofun h
  | closeList | closeObject | comma | colon => cases h

/-- A token more leaves what has been read proper. -/
theorem Reading.IsProper.push (hl : ∀ n m, limits.number n = some m → m.value?.isSome = true)
    (hr : r.IsProper) (h : r.push? limits token = some r') : r'.IsProper := by
  obtain ⟨containers, expected⟩ := r
  obtain ⟨hc, he⟩ := hr
  unfold Reading.push? at h
  dsimp only at hc he h
  split at h
  · -- an empty list ends
    cases h
    obtain ⟨hitems, houter⟩ := List.forall_mem_cons.mp hc
    exact ⟨houter, .list fun v hv => hitems v (List.mem_reverse.mp hv)⟩
  · exact isProper_of_value hl hc h
  · -- an object ends behind its key
    cases h
    exact ⟨(List.forall_mem_cons.mp hc).2, .object he⟩
  · cases h
    exact ⟨hc, he⟩
  · cases h
    exact ⟨List.forall_mem_cons.mpr ⟨he, (List.forall_mem_cons.mp hc).2⟩, trivial⟩
  · -- an item more
    cases h
    obtain ⟨hitems, houter⟩ := List.forall_mem_cons.mp hc
    exact ⟨List.forall_mem_cons.mpr ⟨List.forall_mem_cons.mpr ⟨he, hitems⟩, houter⟩, trivial⟩
  · cases h
    obtain ⟨hitems, houter⟩ := List.forall_mem_cons.mp hc
    refine ⟨houter, .list fun v hv => ?_⟩
    rcases List.mem_cons.mp (List.mem_reverse.mp hv) with rfl | hv
    · exact he
    · exact hitems v hv
  · -- a member more
    cases h
    obtain ⟨hmembers, -⟩ := List.forall_mem_cons.mp hc
    exact ⟨hc, Members.IsProper.put hmembers he⟩
  · cases h
    obtain ⟨hmembers, houter⟩ := List.forall_mem_cons.mp hc
    exact ⟨houter, .object (Members.IsProper.put hmembers he)⟩
  · cases h

theorem Reading.isProper_of_foldlM {tokens : List Token}
    (hl : ∀ n m, limits.number n = some m → m.value?.isSome = true) (hr : r.IsProper)
    (h : tokens.foldlM (Reading.push? limits) r = some r') : r'.IsProper := by
  induction tokens generalizing r with
  | nil =>
    cases h
    exact hr
  | cons token tokens ih =>
    rw [List.foldlM_cons] at h
    obtain ⟨next, hnext, h⟩ := Option.bind_eq_some_iff.mp h
    exact ih (Reading.IsProper.push hl hr hnext) h

theorem isProper_of_ofTokens {tokens : List Token} {value : Json}
    (hl : ∀ n m, limits.number n = some m → m.value?.isSome = true)
    (h : ofTokens? limits tokens = some value) : value.IsProper := by
  obtain ⟨r, hr, h⟩ := Option.bind_eq_some_iff.mp h
  have hempty : Reading.empty.IsProper := ⟨nofun, trivial⟩
  have hr := Reading.isProper_of_foldlM hl hempty hr
  unfold Reading.finish? at h
  split at h
  · rename_i hexpected
    cases h
    have hvalue := hr.expected
    rw [hexpected] at hvalue
    exact hvalue
  · cases h

/-- What is read from a settings file is proper. -/
theorem isProper_of_ofBytes {bytes : List UInt8} {value : Json} (h : ofBytes? bytes = some value) :
    value.IsProper := by
  obtain ⟨text, -, h⟩ := Option.bind_eq_some_iff.mp h
  obtain ⟨tokens, -, h⟩ := Option.bind_eq_some_iff.mp h
  exact isProper_of_ofTokens (fun _ _ => Numeral.value_of_bounded) h

end Json
end DiagnosticWatch
