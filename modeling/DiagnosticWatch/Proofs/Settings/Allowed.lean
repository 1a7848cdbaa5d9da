/-
# Which settings are allowed

The checks are made on values of any type, one after the other. Together they let pass what
can be said without them: a host on this machine, a port between 0 and 65536, and intervals
none of which is zero or less. Members that are not given are the defaults, which are
allowed themselves.

Key definitions: `Settings.Allowed`, `Settings.Describes`.
Key theorems: `Settings.allowed_default`, `Settings.ofKnown_ok_iff`,
`Settings.ofKnown_hostNotText_iff`.
-/
import DiagnosticWatch.Proofs.Settings.Address
import DiagnosticWatch.Proofs.Settings.Members
import DiagnosticWatch.Settings.Basic

namespace DiagnosticWatch
namespace Settings

/-- The intervals. -/
def intervals (s : Settings) : List Number :=
  [s.connectTimeout, s.keepAliveInterval, s.retryInterval, s.connectedInterval, s.debounce]

/-- Settings that pass all checks. -/
structure Allowed (s : Settings) : Prop where
  host : Loopback.IsLoopback (Loopback.bare s.host.toList)
  port : ∃ v, s.port.value? = some v ∧ Extended.ofInt 0 < v ∧ v < Extended.ofInt 65536
  /-- Only a NaN is neither zero or less nor greater. -/
  intervals : ∀ n ∈ s.intervals, ∀ v, n.value? = some v → Extended.ofInt 0 < v

/-- The value of a member that is not given. -/
def default? (name : String) : Option Json := (members {}).get? name

/-- The settings are allowed and have the members that are given, and the defaults for the others. -/
structure Describes (given : String → Option Json) (s : Settings) : Prop where
  allowed : s.Allowed
  members : ∀ m ∈ s.members, (given m.1).or (default? m.1) = some m.2

/-! ### The checks -/

variable {value : Json} {given : Json.Members} {s : Settings}

theorem checkHost_ok_iff {host : String} : checkHost value = .ok host ↔
    value = .text host ∧ Loopback.IsLoopback (Loopback.bare host.toList) := by
  have hempty : Loopback.isHost "" = false := by decide
  rw [← Loopback.isHost_iff]
  unfold checkHost
  split
  · rename_i host'
    rw [Json.text.injEq]
    constructor
    · intro h
      split_ifs at h with hne hh
      cases h
      exact ⟨rfl, hh⟩
    · rintro ⟨rfl, hh⟩
      have hne : host' ≠ "" := fun h => by
        rw [h, hempty] at hh
        cases hh
      rw [if_neg hne, if_pos hh]
  · rename_i hno
    refine iff_of_false (fun h => ?_) fun h => hno host h.1
    split_ifs at h

theorem checkHost_hostNotText_iff {type : String} : checkHost value = .error (.hostNotText type) ↔
    value.isTrue = true ∧ (∀ host, value ≠ .text host) ∧ type = value.typeName := by
  unfold checkHost
  split
  · rename_i host
    refine iff_of_false (fun h => ?_) fun h => h.2.1 host rfl
    split_ifs at h <;> cases h
  · rename_i hno
    constructor
    · intro h
      split_ifs at h with htrue
      · cases h
        exact ⟨htrue, hno, rfl⟩
      · cases h
    · rintro ⟨htrue, -, rfl⟩
      exact if_pos htrue

theorem checkPort_ok_iff {port : Number} : checkPort value = .ok port ↔ value = .number port ∧
    ∃ v, port.value? = some v ∧ Extended.ofInt 0 < v ∧ v < Extended.ofInt 65536 := by
  have hbetween (n : Number) : (n.exceeds 0 = true ∧ n.lessThan 65536 = true) ↔
      ∃ v, n.value? = some v ∧ Extended.ofInt 0 < v ∧ v < Extended.ofInt 65536 := by
    rw [Number.exceeds_iff, Number.lessThan_iff]
    cases n.value? <;> simp
  rw [← hbetween]
  unfold checkPort
  split
  · rw [Json.number.injEq]
    constructor
    · intro h
      split_ifs at h with hb
      cases h
      exact ⟨rfl, hb⟩
    · rintro ⟨rfl, hb⟩
      exact if_pos hb
  · rename_i hno
    exact iff_of_false nofun fun h => hno port h.1

theorem checkInterval_ok_iff {name : String} {n : Number} : checkInterval name value = .ok n ↔
    value = .number n ∧ ∀ v, n.value? = some v → Extended.ofInt 0 < v := by
  have hpositive (n : Number) : ¬ n.atMost 0 = true ↔
      ∀ v, n.value? = some v → Extended.ofInt 0 < v := by
    rw [Number.atMost_iff]
    push Not
    exact Iff.rfl
  rw [← hpositive]
  unfold checkInterval
  split
  · rw [Json.number.injEq]
    constructor
    · intro h
      split_ifs at h with hb
      cases h
      exact ⟨rfl, hb⟩
    · rintro ⟨rfl, hb⟩
      exact if_neg hb
  · rename_i hno
    exact iff_of_false nofun fun h => hno n h.1

/-- Only the host is refused for being no text. -/
theorem checkPort_ne {type : String} : checkPort value ≠ .error (.hostNotText type) := by
  unfold checkPort
  split
  · split_ifs <;> nofun
  · nofun

theorem checkInterval_ne {name type : String} :
    checkInterval name value ≠ .error (.hostNotText type) := by
  unfold checkInterval
  split
  · split_ifs <;> nofun
  · nofun

/-! ### All of them -/

theorem bind_ok_iff {ε α β : Type} {x : Except ε α} {f : α → Except ε β} {b : β} :
    (x >>= f) = .ok b ↔ ∃ a, x = .ok a ∧ f a = .ok b := by
  cases x with
  | ok a => simp [bind, Except.bind]
  | error e => simp [bind, Except.bind]

theorem bind_error_iff {ε α β : Type} {x : Except ε α} {f : α → Except ε β} {e : ε} :
    (x >>= f) = .error e ↔ x = .error e ∨ ∃ a, x = .ok a ∧ f a = .error e := by
  cases x with
  | ok a => simp [bind, Except.bind]
  | error e => simp [bind, Except.bind]

/-- The value that is checked for a member is the one that is given, or else the default. -/
theorem checked_eq_iff {name : String} (h : name ∈ names) :
    (((members {}).overlay given).get? name).getD .null = value ↔
      (given.last? name).or (default? name) = some value := by
  have hsome : ((given.last? name).or (default? name)).isSome = true := by
    have hdefault : ∀ name ∈ names, (default? name).isSome = true := by decide
    rw [Option.isSome_or, hdefault name h, Bool.or_true]
  rw [Json.Members.get_overlay, ← default?]
  obtain ⟨v, hv⟩ := Option.isSome_iff_exists.mp hsome
  rw [hv, Option.getD_some, Option.some_inj]

/-- Members make settings if and only if these are allowed and have the members. -/
theorem ofKnown_ok_iff : ofKnown given = .ok s ↔ Describes given.last? s := by
  unfold ofKnown
  simp only [bind_ok_iff, checkHost_ok_iff, checkPort_ok_iff, checkInterval_ok_iff]
  simp (disch := decide) only [checked_eq_iff]
  constructor
  · rintro ⟨host, ⟨hhost, hlocal⟩, port, ⟨hport, hbetween⟩, n₁, ⟨h₁, hp₁⟩, n₂, ⟨h₂, hp₂⟩, n₃, ⟨h₃, hp₃⟩,
      n₄, ⟨h₄, hp₄⟩, n₅, ⟨h₅, hp₅⟩, heq⟩
    cases heq
    refine ⟨⟨hlocal, hbetween, ?_⟩, ?_⟩
    · simp only [intervals, List.forall_mem_cons]
      exact ⟨hp₁, hp₂, hp₃, hp₄, hp₅, nofun⟩
    · simp only [members, List.forall_mem_cons]
      exact ⟨hhost, hport, h₁, h₂, h₃, h₄, h₅, nofun⟩
  · rintro ⟨⟨hlocal, hbetween, hpositive⟩, hmembers⟩
    simp only [intervals, List.forall_mem_cons] at hpositive
    obtain ⟨hp₁, hp₂, hp₃, hp₄, hp₅, -⟩ := hpositive
    simp only [members, List.forall_mem_cons] at hmembers
    obtain ⟨hhost, hport, h₁, h₂, h₃, h₄, h₅, -⟩ := hmembers
    exact ⟨_, ⟨hhost, hlocal⟩, _, ⟨hport, hbetween⟩, _, ⟨h₁, hp₁⟩, _, ⟨h₂, hp₂⟩, _, ⟨h₃, hp₃⟩, _, ⟨h₄, hp₄⟩,
      _, ⟨h₅, hp₅⟩, rfl⟩

/-- The one error that says that a host is no text. -/
theorem ofKnown_hostNotText_iff {type : String} : ofKnown given = .error (.hostNotText type) ↔
    ∃ v, given.last? "host" = some v ∧ v.isTrue = true ∧ (∀ host, v ≠ .text host) ∧
      type = v.typeName := by
  unfold ofKnown
  have hpure (s : Settings) : (pure s : Except SettingsError Settings) ≠ .error (.hostNotText type) :=
    nofun
  simp only [bind_error_iff, checkPort_ne, checkInterval_ne, hpure, and_false, exists_false, or_false]
  rw [checkHost_hostNotText_iff, Json.Members.get_overlay]
  have hdefault : (members {}).get? "host" = some (.text ({} : Settings).host) := rfl
  rw [hdefault]
  cases hlast : given.last? "host" with
  | some v => simp
  | none => simp

/-- The defaults are allowed. -/
theorem allowed_default : Allowed {} := by
  have h : ofKnown [] = .ok {} := rfl
  exact (ofKnown_ok_iff.mp h).allowed

end Settings
end DiagnosticWatch
