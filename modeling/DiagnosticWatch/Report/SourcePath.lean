/-
# Paths of source files

The debug server spells a path with slashes or backslashes, and may repeat
them. A source path is the canonical spelling: every run of separators is one
slash. It is the key under which a report is kept.

Key definitions: `SourcePath.normalize`, `SourcePath.Canonical`, `SourcePath`.
Key theorems: `SourcePath.canonical_normalize`, `SourcePath.normalize_of_canonical`.
-/

namespace DiagnosticWatch

namespace SourcePath

/-- A separator as it is written in a canonical path. -/
def slashed (c : Char) : Char :=
  if c = '\\' then '/' else c

/-- Adds a character to a canonical path read so far, last character first. -/
def extend (read : List Char) (c : Char) : List Char :=
  if slashed c = '/' ∧ read.head? = some '/' then read else slashed c :: read

/-- The canonical spelling of a path. -/
def normalize (path : List Char) : List Char :=
  (path.foldl extend []).reverse

/-- No backslash, and no two slashes side by side. -/
def Canonical (path : List Char) : Prop :=
  '\\' ∉ path ∧ ¬['/', '/'] <:+: path

theorem slashed_ne (c : Char) : slashed c ≠ '\\' := by
  unfold slashed
  split
  · decide
  · assumption

theorem slashed_eq {c : Char} (h : c ≠ '\\') : slashed c = c := by
  simp [slashed, h]

theorem canonical_extend {read : List Char} (c : Char) (h : Canonical read) :
    Canonical (extend read c) := by
  unfold extend
  split
  · exact h
  · rename_i free
    refine ⟨?_, fun pair => ?_⟩
    · simp only [List.mem_cons, not_or]
      exact ⟨(slashed_ne c).symm, h.1⟩
    · rcases List.infix_cons_iff.1 pair with front | later
      · obtain ⟨first, rest⟩ := List.cons_prefix_cons.1 front
        obtain ⟨tail, rfl⟩ := rest
        exact free ⟨first.symm, rfl⟩
      · exact h.2 later

theorem canonical_foldl_extend (path : List Char) :
    ∀ {read : List Char}, Canonical read → Canonical (path.foldl extend read) := by
  induction path with
  | nil => exact fun h => h
  | cons c path ih => exact fun h => ih (canonical_extend c h)

theorem canonical_reverse {path : List Char} (h : Canonical path) : Canonical path.reverse := by
  refine ⟨by simpa using h.1, fun pair => h.2 ?_⟩
  simpa using List.reverse_infix.2 pair

/-- A normalized path is canonical. -/
theorem canonical_normalize (path : List Char) : Canonical (normalize path) :=
  canonical_reverse (canonical_foldl_extend path ⟨by simp, by simp⟩)

theorem foldl_extend_of_canonical :
    ∀ (path read : List Char), Canonical (read.reverse ++ path) →
      path.foldl extend read = path.reverse ++ read
  | [], _, _ => by simp
  | c :: path, read, h => by
    have plain : c ≠ '\\' := fun eq => h.1 (by simp [eq])
    have step : extend read c = c :: read := by
      have apart : ¬(c = '/' ∧ read.head? = some '/') := by
        rintro ⟨rfl, head⟩
        obtain ⟨rest, rfl⟩ := List.head?_eq_some_iff.1 head
        exact h.2 ⟨rest.reverse, path, by simp⟩
      simp [extend, slashed_eq plain, apart]
    rw [List.foldl_cons, step, foldl_extend_of_canonical path (c :: read) (by simpa using h)]
    simp

/-- A canonical path is its own normal form. -/
theorem normalize_of_canonical {path : List Char} (h : Canonical path) : normalize path = path := by
  simp [normalize, foldl_extend_of_canonical path [] (by simpa using h)]

end SourcePath

/-- A path in its canonical spelling. -/
structure SourcePath where
  text : String
  canonical : SourcePath.Canonical text.toList

namespace SourcePath

/-- The source path that any spelling stands for. -/
def ofString (path : String) : SourcePath :=
  ⟨String.ofList (normalize path.toList), by simpa using canonical_normalize path.toList⟩

theorem ext {p q : SourcePath} (h : p.text = q.text) : p = q := by
  cases p; cases q; cases h; rfl

instance : DecidableEq SourcePath := fun p q =>
  if h : p.text = q.text then isTrue (ext h) else isFalse fun eq => h (eq ▸ rfl)

instance : Repr SourcePath := ⟨fun p _ => repr p.text⟩

/-- The path of a canonical spelling has that spelling. -/
theorem ofString_text (p : SourcePath) : ofString p.text = p := by
  apply ext
  simp [ofString, normalize_of_canonical p.canonical]

end SourcePath
end DiagnosticWatch
