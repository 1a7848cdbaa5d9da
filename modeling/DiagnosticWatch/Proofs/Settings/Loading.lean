/-
# Settings that come into being

Settings are loaded from two files, and there are always some, unless a file is out of
reach or the member that counts for the host is neither a text nor counts as missing. They
are the ones that the members make, or the defaults if these make none. However settings
come into being, they are as they ought to be, but for one thing: the port may be between
two whole numbers.

Key definitions: `SettingsFile.given`, `Settings.Unloadable`, `Settings.Valid`, `Settings.Made`.
Key theorems: `Settings.load_ok_iff`, `Settings.valid_iff_of_made`.
-/
import DiagnosticWatch.Proofs.Settings.Allowed
import DiagnosticWatch.Settings.Load

namespace DiagnosticWatch

namespace SettingsFile

/-- The file system says whether the file is there. -/
def IsReachable (file : SettingsFile) : Prop := ∀ why, file.content ≠ .unreachable why

/-- The members that a file holds, if any. -/
def held (file : SettingsFile) : Json.Members :=
  match file.members with
  | .ok (members, _) => members
  | .error _ => []

/-- What two files give for a member: that of the second one counts. -/
def given (globalFile localFile : SettingsFile) (name : String) : Option Json :=
  (localFile.held.last? name).or (globalFile.held.last? name)

variable {file : SettingsFile}

theorem isReachable_or (file : SettingsFile) :
    file.IsReachable ∨ ∃ why, file.content = .unreachable why := by
  by_cases h : ∃ why, file.content = .unreachable why
  · exact .inr h
  · exact .inl (not_exists.mp h)

theorem members_of_unreachable {why : String} (h : file.content = .unreachable why) :
    file.members = .error (.unreachable why) := by
  simp only [members, h]

theorem IsReachable.members (h : file.IsReachable) :
    ∃ notices, file.members = .ok (file.held, notices) := by
  cases hmembers : file.members with
  | ok found => exact ⟨found.2, by simp only [held, hmembers]⟩
  | error e =>
    unfold SettingsFile.members at hmembers
    split at hmembers
    case h_2 why hwhy => exact absurd hwhy (h why)
    case h_4 => split at hmembers <;> cases hmembers
    all_goals cases hmembers

end SettingsFile

namespace Settings

variable {file globalFile localFile : SettingsFile} {given upper : Json.Members} {s t : Settings}

/-! ### Files -/

/-- The settings of an object, or the defaults if it makes none. -/
theorem orDefault_ok (h : (orDefault given).1 = .ok s) :
    Describes given.last? s ∨ s = {} ∧ ∀ t, ¬ Describes given.last? t := by
  unfold orDefault at h
  split at h
  · rename_i settings hknown
    cases h
    exact .inl (ofKnown_ok_iff.mp hknown)
  · cases h
  · rename_i e hknown
    cases h
    refine .inr ⟨rfl, fun t ht => ?_⟩
    rw [ofKnown_ok_iff.mpr ht] at hknown
    cases hknown

/-- The one error that is not forgiven. -/
theorem orDefault_error_iff {e : SettingsError} : (orDefault given).1 = .error e ↔
    ∃ v, given.last? "host" = some v ∧ v.isTrue = true ∧ (∀ host, v ≠ .text host) ∧
      e = .hostNotText v.typeName := by
  have hknown (type : String) := @ofKnown_hostNotText_iff given type
  unfold orDefault
  split
  · rename_i settings hok
    refine iff_of_false nofun ?_
    rintro ⟨v, hv, htrue, hno, -⟩
    rw [(hknown _).mpr ⟨v, hv, htrue, hno, rfl⟩] at hok
    cases hok
  · rename_i type herror
    obtain ⟨v, hv, htrue, hno, rfl⟩ := (hknown type).mp herror
    constructor
    · intro h
      cases h
      exact ⟨v, hv, htrue, hno, rfl⟩
    · rintro ⟨v', hv', -, -, rfl⟩
      rw [hv] at hv'
      cases hv'
      rfl
  · rename_i e' hother herror
    refine iff_of_false nofun ?_
    rintro ⟨v, hv, htrue, hno, -⟩
    rw [(hknown _).mpr ⟨v, hv, htrue, hno, rfl⟩] at herror
    cases herror
    exact hother _ rfl

theorem last_held : (globalFile.held.overlay localFile.held).last? =
    globalFile.given localFile :=
  funext fun _ => Json.Members.last_overlay

/-- Why no settings are loaded from two files: one is out of reach, or the member that counts for
the host is of a type that is not allowed. The error is the first one that is met. -/
inductive Unloadable (globalFile localFile : SettingsFile) : SettingsError → Prop
  | below {why : String} (h : globalFile.content = .unreachable why) :
    Unloadable globalFile localFile (.unreachable why)
  | above {why : String} (hglobal : globalFile.IsReachable) (h : localFile.content = .unreachable why) :
    Unloadable globalFile localFile (.unreachable why)
  | host {v : Json} (hglobal : globalFile.IsReachable) (hlocal : localFile.IsReachable)
    (hv : globalFile.given localFile "host" = some v) (htrue : v.isTrue = true)
    (hno : ∀ host, v ≠ .text host) : Unloadable globalFile localFile (.hostNotText v.typeName)

theorem load_of_isReachable (hglobal : globalFile.IsReachable) (hlocal : localFile.IsReachable) :
    (load globalFile localFile).1 = (orDefault (globalFile.held.overlay localFile.held)).1 := by
  obtain ⟨first, hbelow⟩ := hglobal.members
  obtain ⟨second, habove⟩ := hlocal.members
  simp only [load, hbelow, habove]

theorem load_error_iff {e : SettingsError} :
    (load globalFile localFile).1 = .error e ↔ Unloadable globalFile localFile e := by
  rcases globalFile.isReachable_or with hglobal | ⟨why, hwhy⟩
  · rcases localFile.isReachable_or with hlocal | ⟨why, hwhy⟩
    · rw [load_of_isReachable hglobal hlocal, orDefault_error_iff, last_held]
      constructor
      · rintro ⟨v, hv, htrue, hno, rfl⟩
        exact .host hglobal hlocal hv htrue hno
      · rintro (h | ⟨-, h⟩ | ⟨-, -, hv, htrue, hno⟩)
        · exact absurd h (hglobal _)
        · exact absurd h (hlocal _)
        · exact ⟨_, hv, htrue, hno, rfl⟩
    · obtain ⟨first, hbelow⟩ := hglobal.members
      simp only [load, hbelow, SettingsFile.members_of_unreachable hwhy, Except.error.injEq]
      constructor
      · rintro rfl
        exact .above hglobal hwhy
      · rintro (h | ⟨-, h⟩ | ⟨-, hlocal, -⟩)
        · exact absurd h (hglobal _)
        · exact congrArg SettingsError.unreachable (Content.unreachable.inj (hwhy.symm.trans h))
        · exact absurd hwhy (hlocal why)
  · simp only [load, SettingsFile.members_of_unreachable hwhy, Except.error.injEq]
    constructor
    · rintro rfl
      exact .below hwhy
    · rintro (h | ⟨hglobal, -⟩ | ⟨hglobal, -⟩)
      · exact congrArg SettingsError.unreachable (Content.unreachable.inj (hwhy.symm.trans h))
      · exact absurd hwhy (hglobal why)
      · exact absurd hwhy (hglobal why)

theorem not_unloadable (h : (load globalFile localFile).1 = .ok s) (e : SettingsError) :
    ¬ Unloadable globalFile localFile e := by
  intro he
  rw [load_error_iff.mpr he] at h
  cases h

theorem isReachable_of_load (h : (load globalFile localFile).1 = .ok s) :
    globalFile.IsReachable ∧ localFile.IsReachable := by
  have hglobal : globalFile.IsReachable := fun _ hwhy => not_unloadable h _ (.below hwhy)
  exact ⟨hglobal, fun _ hwhy => not_unloadable h _ (.above hglobal hwhy)⟩

theorem load_ok (h : (load globalFile localFile).1 = .ok s) :
    (orDefault (globalFile.held.overlay localFile.held)).1 = .ok s := by
  obtain ⟨hglobal, hlocal⟩ := isReachable_of_load h
  rw [← load_of_isReachable hglobal hlocal, h]

/-- Settings are loaded from two files whatever these hold, unless the file system does not say
whether one of them is there, or the member that counts for the host is of a type that is not
allowed, and then there are none. The settings are those that the members make, of which the local
ones count; and where these make none, the defaults. -/
theorem load_ok_iff (globalFile localFile : SettingsFile) :
    ((∃ s, (load globalFile localFile).1 = .ok s) ↔
      globalFile.IsReachable ∧ localFile.IsReachable ∧
        ∀ v, globalFile.given localFile "host" = some v → v.isTrue = true → ∃ host, v = .text host) ∧
    (∀ s, (load globalFile localFile).1 = .ok s → Describes (globalFile.given localFile) s ∨
      s = {} ∧ ∀ t, ¬ Describes (globalFile.given localFile) t) ∧
    ∀ e, (load globalFile localFile).1 = .error e ↔ Unloadable globalFile localFile e := by
  refine ⟨⟨?_, ?_⟩, fun s h => ?_, fun e => load_error_iff⟩
  · rintro ⟨s, hs⟩
    obtain ⟨hglobal, hlocal⟩ := isReachable_of_load hs
    refine ⟨hglobal, hlocal, fun v hv htrue => ?_⟩
    by_contra hno
    exact not_unloadable hs _ (.host hglobal hlocal hv htrue (not_exists.mp hno))
  · rintro ⟨hglobal, hlocal, h⟩
    cases hs : (load globalFile localFile).1 with
    | ok s => exact ⟨s, rfl⟩
    | error e =>
      cases load_error_iff.mp hs with
      | below hwhy => exact absurd hwhy (hglobal _)
      | above _ hwhy => exact absurd hwhy (hlocal _)
      | host _ _ hv htrue hno =>
        obtain ⟨host, hhost⟩ := h _ hv htrue
        exact absurd hhost (hno host)
  · rw [← last_held]
    exact orDefault_ok (load_ok h)

/-! ### Values without a NaN -/

theorem isProper_of_lookup {members : Json.Members} {name : String} {value : Json}
    (h : members.IsProper) (hv : members.lookup name = some value) : value.IsProper := by
  obtain ⟨before, after, rfl, -⟩ := List.lookup_eq_some_iff.mp hv
  exact h (name, value) (by simp)

theorem isProper_overlay (hgiven : given.IsProper) (hupper : upper.IsProper) :
    (given.overlay upper).IsProper := by
  unfold Json.Members.overlay
  induction upper generalizing given with
  | nil => exact hgiven
  | cons m upper ih =>
    obtain ⟨hm, hupper⟩ := List.forall_mem_cons.mp hupper
    exact ih (hgiven.put hm) hupper

theorem isProper_default : (members {}).IsProper := by
  have hfloat (x : Float) (h : x.isNaN = false) : (Json.number (.float x)).IsProper :=
    .number (Double.value_isSome h)
  simp only [Json.Members.IsProper, members, List.forall_mem_cons]
  refine ⟨.text _, .number rfl, ?_, ?_, ?_, ?_, ?_, List.forall_mem_nil _⟩
  all_goals exact hfloat _ (by decide +kernel)

theorem isProper_of_members {notices : List Notice} (h : file.members = .ok (given, notices)) :
    given.IsProper := by
  unfold SettingsFile.members at h
  split at h
  · cases h
    exact nofun
  · cases h
  · cases h
    exact nofun
  · split at h
    · rename_i members hread
      cases h
      cases Json.isProper_of_ofBytes hread with
      | object h => exact h
    · cases h
      exact nofun
    · cases h
      exact nofun

theorem isProper_held (file : SettingsFile) : file.held.IsProper := by
  unfold SettingsFile.held
  split
  · rename_i hmembers
    exact isProper_of_members hmembers
  · exact nofun

/-- What is neither given nor a default is no member. -/
theorem Describes.isProper (h : Describes given.last? s) (hgiven : given.IsProper) :
    s.members.IsProper := by
  intro m hm
  have hvalue := h.members m hm
  rcases Option.or_eq_some_iff.mp hvalue with hlast | ⟨-, hdefault⟩
  · exact isProper_of_lookup (fun m hm => hgiven m (List.mem_reverse.mp hm)) hlast
  · exact isProper_of_lookup isProper_default hdefault

/-- Allowed settings without a NaN have positive intervals. -/
theorem Describes.positive (h : Describes given.last? s) (hgiven : given.IsProper) :
    ∀ n ∈ s.intervals, ∃ v, n.value? = some v ∧ Extended.ofInt 0 < v := by
  intro n hn
  have hmem : .number n ∈ s.members.map (·.2) := by
    simp only [Settings.intervals, List.mem_cons, List.not_mem_nil, or_false] at hn
    rcases hn with rfl | rfl | rfl | rfl | rfl <;> simp [Settings.members]
  obtain ⟨m, hm, hn'⟩ := List.mem_map.mp hmem
  have hproper := h.isProper hgiven m hm
  rw [hn'] at hproper
  cases hproper with
  | number hsome =>
    obtain ⟨v, hv⟩ := Option.isSome_iff_exists.mp hsome
    exact ⟨v, hv, h.allowed.intervals n hn v hv⟩

/-! ### All ways -/

/-- Settings as they ought to be: the host is this machine, the port is a whole number from 1 to
65535, and the intervals are positive. -/
structure Valid (s : Settings) : Prop where
  host : Loopback.IsLoopback (Loopback.bare s.host.toList)
  port : ∃ p : ℤ, s.port.value? = some (Extended.ofInt p) ∧ 1 ≤ p ∧ p ≤ 65535
  intervals : ∀ n ∈ s.intervals, ∃ v, n.value? = some v ∧ Extended.ofInt 0 < v

/-- The settings come into being from values that are no NaN. -/
inductive Made : Settings → Prop
  | members {given : Json.Members} {s : Settings} (hgiven : given.IsProper)
      (h : ofMembers given = .ok s) : Made s
  | known {given : Json.Members} {s : Settings} (hgiven : given.IsProper)
      (h : ofKnown given = .ok s) : Made s
  | overlaid {s t : Settings} {upper : Json.Members} (hs : s.members.IsProper)
      (hupper : upper.IsProper) (h : s.overlaid upper = .ok t) : Made t
  | load {globalFile localFile : SettingsFile} {s : Settings}
      (h : (load globalFile localFile).1 = .ok s) : Made s

theorem ofKnown_of_ofMembers (h : ofMembers given = .ok s) : ofKnown given = .ok s := by
  unfold ofMembers at h
  split at h
  · split_ifs at h
  · exact h

/-- Settings come into being as the ones that some members describe. -/
theorem describes_of_made (h : Made s) :
    ∃ given : Json.Members, given.IsProper ∧ Describes given.last? s := by
  cases h with
  | @members given _ hgiven h => exact ⟨given, hgiven, ofKnown_ok_iff.mp (ofKnown_of_ofMembers h)⟩
  | @known given _ hgiven h => exact ⟨given, hgiven, ofKnown_ok_iff.mp h⟩
  | overlaid hs hupper h =>
    refine ⟨_, isProper_overlay hs fun m hm => ?_, ofKnown_ok_iff.mp h⟩
    exact hupper m (List.mem_of_mem_filter hm)
  | @load globalFile localFile _ h =>
    rcases orDefault_ok (load_ok h) with h | ⟨rfl, -⟩
    · exact ⟨_, isProper_overlay (isProper_held globalFile) (isProper_held localFile), h⟩
    · exact ⟨[], nofun, ofKnown_ok_iff.mp rfl⟩

/-- A whole number strictly between two others. -/
theorem ofInt_between {p : ℤ} (h : Extended.ofInt 0 < Extended.ofInt p)
    (h' : Extended.ofInt p < Extended.ofInt 65536) : 1 ≤ p ∧ p ≤ 65535 := by
  rw [Extended.ofInt_lt_ofInt] at h h'
  omega

/-- However settings come into being, the host is this machine, the port is between 0 and 65536
and the intervals are positive. So they are as they ought to be if and only if the port is a
whole number. -/
theorem valid_iff_of_made (h : Made s) :
    Loopback.IsLoopback (Loopback.bare s.host.toList) ∧
    (∃ v, s.port.value? = some v ∧ Extended.ofInt 0 < v ∧ v < Extended.ofInt 65536) ∧
    (∀ n ∈ s.intervals, ∃ v, n.value? = some v ∧ Extended.ofInt 0 < v) ∧
    (Valid s ↔ ∃ p : ℤ, s.port.value? = some (Extended.ofInt p)) := by
  obtain ⟨given, hgiven, h⟩ := describes_of_made h
  have hpositive := h.positive hgiven
  refine ⟨h.allowed.host, h.allowed.port, hpositive, ⟨fun hv => ?_, ?_⟩⟩
  · obtain ⟨p, hp, -⟩ := hv.port
    exact ⟨p, hp⟩
  · rintro ⟨p, hp⟩
    obtain ⟨v, hv, hlow, hhigh⟩ := h.allowed.port
    rw [hp, Option.some_inj] at hv
    subst hv
    exact ⟨h.allowed.host, ⟨p, hp, ofInt_between hlow hhigh⟩, hpositive⟩

/-- A truth value is a port, and half of one passes for a port, too. -/
theorem truth_and_half_as_port :
    ∃ s t, ofMembers [("host", .text "[::1%lo]"), ("port", .number (.truth true))] = .ok s ∧ Valid s ∧
      ofMembers [("port", .number (.float 0.5))] = .ok t ∧ ¬ Valid t := by
  refine ⟨_, _, rfl, ?_, rfl, ?_⟩
  · have hproper : Json.Members.IsProper
        [("host", .text "[::1%lo]"), ("port", .number (.truth true))] := by
      simp only [Json.Members.IsProper, List.forall_mem_cons]
      exact ⟨.text _, .number rfl, nofun⟩
    exact (valid_iff_of_made (.members hproper rfl)).2.2.2.mpr ⟨1, rfl⟩
  · have hproper : Json.Members.IsProper [("port", .number (.float 0.5))] := by
      simp only [Json.Members.IsProper, List.forall_mem_cons]
      have hhalf : (0.5 : Float).isNaN = false := by decide +kernel
      exact ⟨.number (n := .float 0.5) (Double.value_isSome hhalf), nofun⟩
    intro hvalid
    obtain ⟨p, hp⟩ := (valid_iff_of_made (.members hproper rfl)).2.2.2.mp hvalid
    have hp : (Number.float 0.5).value? = some (Extended.ofInt p) := hp
    obtain ⟨v, hv, hlow⟩ := (Number.exceeds_iff (n := .float 0.5) (i := 0)).mp (by decide +kernel)
    obtain ⟨v', hv', hhigh⟩ := (Number.lessThan_iff (n := .float 0.5) (i := 1)).mp (by decide +kernel)
    rw [hp] at hv hv'
    cases hv
    cases hv'
    rw [Extended.ofInt_lt_ofInt] at hlow hhigh
    omega

end Settings
end DiagnosticWatch
