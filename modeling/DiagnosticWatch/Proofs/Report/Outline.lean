/-
# Which spellings are one path

The outline of a path is the path with every maximal run of separators as one
mark. Two spellings stand for one source path exactly if they have the same
outline (`SourcePath.outline_iff`); the canonical spelling draws the outline
with a slash for each mark (`SourcePath.Outline.normalize_eq`). A slash in
place of a run makes no difference to what is read before or behind it
(`SourcePath.Outline.foldl_extend`), so the two parts of a path can be
normalized before they are joined.

`SourcePath.normalize_eq_collapse` is the canonical spelling in two passes:
first every separator becomes a slash, and then two slashes or more become one.

Key definitions: `SourcePath.Separator`, `SourcePath.Outline`, `SourcePath.collapse`.
Key theorems: `SourcePath.outline_iff`, `SourcePath.normalize_append`,
`SourcePath.normalize_eq_collapse`, `SourcePath.same_text_iff_same_outline`.
-/
import DiagnosticWatch.Report.SourcePath
import Mathlib.Data.List.Basic

namespace DiagnosticWatch
namespace SourcePath

/-- What separates the names of a path. -/
def Separator (c : Char) : Prop :=
  c = '/' ∨ c = '\\'

instance (c : Char) : Decidable (Separator c) := instDecidableOr

/-- The path with one mark, `none`, for every maximal run of separators. -/
inductive Outline : List Char → List (Option Char) → Prop
  | nil : Outline [] []
  | plain {c : Char} {path : List Char} {outline : List (Option Char)} :
      ¬Separator c → Outline path outline → Outline (c :: path) (some c :: outline)
  | run {separators path : List Char} {outline : List (Option Char)} :
      separators ≠ [] → (∀ c ∈ separators, Separator c) → (∀ c ∈ path.head?, ¬Separator c) →
        Outline path outline → Outline (separators ++ path) (none :: outline)

/-- How an element of an outline is written in a canonical path. -/
def draw (element : Option Char) : Char :=
  element.getD '/'

/-- The element of an outline that a character of a canonical path stands for. -/
def sketch (c : Char) : Option Char :=
  if c = '/' then none else some c

variable {c : Char} {path separators read : List Char} {outline : List (Option Char)}

theorem slashed_of_separator (h : Separator c) : slashed c = '/' := by
  rcases h with rfl | rfl <;> rfl

theorem slashed_of_plain (h : ¬Separator c) : slashed c = c :=
  slashed_eq fun hc => h (.inr hc)

theorem sketch_of_plain (h : ¬Separator c) : sketch c = some c :=
  if_neg fun hc => h (.inl hc)

/-! ### Every path has one outline -/

theorem exists_outline (path : List Char) : ∃ outline, Outline path outline := by
  induction path with
  | nil => exact ⟨[], .nil⟩
  | cons c path ih =>
    obtain ⟨outline, h⟩ := ih
    by_cases hc : Separator c
    · -- The run that begins here ends here, or goes on with the next one.
      cases h with
      | nil => exact ⟨_, @Outline.run [c] _ _ (by simp) (by simpa) (by simp) .nil⟩
      | plain hd h => exact ⟨_, @Outline.run [c] _ _ (by simp) (by simpa) (by simpa) (.plain hd h)⟩
      | run _ hall hend h =>
        exact ⟨_, @Outline.run (c :: _) _ _ (by simp) (List.forall_mem_cons.mpr ⟨hc, hall⟩) hend h⟩
    · exact ⟨_, .plain hc h⟩

/-- Separators behind a slash add nothing. -/
theorem foldl_extend_separators (h : ∀ c ∈ separators, Separator c) :
    separators.foldl extend ('/' :: read) = '/' :: read := by
  induction separators with
  | nil => rfl
  | cons c separators ih =>
    obtain ⟨hc, hall⟩ := List.forall_mem_cons.mp h
    rw [List.foldl_cons, extend, if_pos ⟨slashed_of_separator hc, rfl⟩, ih hall]

/-- A run of separators is read as one slash. -/
theorem foldl_extend_run (hne : separators ≠ []) (h : ∀ c ∈ separators, Separator c)
    (read : List Char) : separators.foldl extend read = extend read '/' := by
  cases separators with
  | nil => exact absurd rfl hne
  | cons c separators =>
    obtain ⟨hc, hall⟩ := List.forall_mem_cons.mp h
    have hfirst : extend read c = extend read '/' := by
      simp only [extend, slashed_of_separator hc, slashed_of_separator (.inl rfl)]
    rw [List.foldl_cons, hfirst]
    by_cases hread : read.head? = some '/'
    · obtain ⟨rest, rfl⟩ := List.head?_eq_some_iff.mp hread
      exact foldl_extend_separators hall
    · have hnew : extend read '/' = '/' :: read := by
        simp [extend, slashed, hread]
      rw [hnew, foldl_extend_separators hall]

/-- Whatever was read before, a path is read as the drawing of its outline. -/
theorem Outline.foldl_extend (h : Outline path outline) (read : List Char) :
    path.foldl extend read = (outline.map draw).foldl extend read := by
  induction h generalizing read with
  | nil => rfl
  | plain _ _ ih => exact ih _
  | run hne hall _ _ ih =>
    rw [List.foldl_append, foldl_extend_run hne hall, ih]
    rfl

theorem Outline.head?_ne (h : Outline path outline) (hpath : ∀ c ∈ path.head?, ¬Separator c) :
    (outline.map draw).head? ≠ some '/' := by
  cases h with
  | nil => simp
  | plain hc _ =>
    intro hslash
    exact hc (.inl (by simpa [draw] using hslash))
  | run hne hall _ _ =>
    obtain ⟨d, rest, rfl⟩ := List.exists_cons_of_ne_nil hne
    exact absurd (hall d (by simp)) (hpath d (by simp))

/-- The drawing of an outline is canonical. -/
theorem Outline.canonical (h : Outline path outline) : Canonical (outline.map draw) := by
  induction h with
  | nil => exact ⟨by simp, by simp⟩
  | plain hc h ih =>
    refine ⟨?_, fun hpair => ?_⟩
    · rw [List.map_cons, List.mem_cons, not_or]
      exact ⟨fun hslash => hc (.inr hslash.symm), ih.1⟩
    · rcases List.infix_cons_iff.mp hpair with hfront | hlater
      · exact hc (.inl (List.cons_prefix_cons.mp hfront).1.symm)
      · exact ih.2 hlater
  | run _ _ hend h ih =>
    refine ⟨by simpa [draw] using ih.1, fun hpair => ?_⟩
    rcases List.infix_cons_iff.mp hpair with hfront | hlater
    · obtain ⟨rest, hrest⟩ := (List.cons_prefix_cons.mp hfront).2
      exact h.head?_ne hend (by rw [← hrest]; rfl)
    · exact ih.2 hlater

/-- The canonical spelling draws the outline. -/
theorem Outline.normalize_eq (h : Outline path outline) : normalize path = outline.map draw := by
  calc normalize path = normalize (outline.map draw) := by
        rw [normalize, normalize, h.foldl_extend]
    _ = outline.map draw := normalize_of_canonical h.canonical

/-- The outline can be read off the canonical spelling. -/
theorem outline_iff : Outline path outline ↔ outline = (normalize path).map sketch := by
  have hread : ∀ {outline}, Outline path outline → outline = (normalize path).map sketch := by
    intro outline h
    have hback : (outline.map draw).map sketch = outline := by
      induction h with
      | nil => rfl
      | plain hc _ ih => simpa [draw, sketch_of_plain hc] using ih
      | run _ _ _ _ ih => simpa [draw, sketch] using ih
    rw [h.normalize_eq, hback]
  refine ⟨hread, ?_⟩
  rintro rfl
  obtain ⟨outline, h⟩ := exists_outline path
  rwa [← hread h]

/-! ### What the canonical spelling keeps -/

theorem normalize_append (a b : List Char) :
    normalize (a ++ b) = normalize (normalize a ++ normalize b) := by
  obtain ⟨first, ha⟩ := exists_outline a
  obtain ⟨second, hb⟩ := exists_outline b
  calc normalize (a ++ b) = (b.foldl extend (a.foldl extend [])).reverse := by
        rw [normalize, List.foldl_append]
    _ = ((normalize b).foldl extend ((normalize a).foldl extend [])).reverse := by
        rw [ha.foldl_extend, hb.foldl_extend, ha.normalize_eq, hb.normalize_eq]
    _ = normalize (normalize a ++ normalize b) := by
        rw [← List.foldl_append, ← normalize]

/-- All other characters stay, in their order. -/
theorem filter_normalize (path : List Char) :
    (normalize path).filter (¬Separator ·) = path.filter (¬Separator ·) := by
  obtain ⟨outline, h⟩ := exists_outline path
  rw [h.normalize_eq]
  induction h with
  | nil => rfl
  | plain hc _ ih => simpa [draw, hc] using ih
  | run _ hall _ _ ih =>
    have hnone : ∀ run : List Char, (∀ c ∈ run, Separator c) → run.filter (¬Separator ·) = [] :=
      fun run hrun => List.filter_eq_nil_iff.mpr (by simpa using hrun)
    rw [List.filter_append, hnone _ hall, List.nil_append, ← ih]
    simp [draw, Separator]

/-- A separator at the front stays as one slash, and nothing else comes there. -/
theorem head?_normalize (path : List Char) : (normalize path).head? = path.head?.map slashed := by
  obtain ⟨outline, h⟩ := exists_outline path
  rw [h.normalize_eq]
  cases h with
  | nil => rfl
  | plain hc _ => simp [draw, slashed_of_plain hc]
  | run hne hall _ _ =>
    obtain ⟨d, rest, rfl⟩ := List.exists_cons_of_ne_nil hne
    simp [draw, slashed_of_separator (hall d (by simp))]

/-- A separator at the end stays as one slash, and nothing else comes there. -/
theorem getLast?_normalize (path : List Char) :
    (normalize path).getLast? = path.getLast?.map slashed := by
  have hnext : ∀ read c, (extend read c).head? = some (slashed c) := by
    intro read c
    by_cases hmerged : slashed c = '/' ∧ read.head? = some '/'
    · rw [extend, if_pos hmerged, hmerged.1, hmerged.2]
    · rw [extend, if_neg hmerged, List.head?_cons]
  rw [normalize, List.getLast?_reverse]
  rcases List.eq_nil_or_concat path with rfl | ⟨front, c, rfl⟩
  · rfl
  · rw [List.concat_eq_append, List.foldl_append, List.getLast?_concat]
    exact hnext _ c

/-! ### Two passes -/

/-- Two slashes or more become one: the first from the left, as long as it goes. -/
def collapse : List Char → List Char
  | '/' :: '/' :: rest => '/' :: collapse (rest.dropWhile (· = '/'))
  | c :: rest => c :: collapse rest
  | [] => []
termination_by path => path.length
decreasing_by
  · have := (List.dropWhile_sublist (l := rest) (· = '/')).length_le
    simp only [List.length_cons]
    omega
  · simp

theorem collapse_of_plain (h : c ≠ '/') (path : List Char) :
    collapse (c :: path) = c :: collapse path := by
  rw [collapse]
  rintro rest rfl -
  exact h rfl

/-- As many slashes as there are become one. -/
theorem collapse_slashes (h : path.head? ≠ some '/') (n : Nat) :
    collapse (List.replicate (n + 1) '/' ++ path) = '/' :: collapse path := by
  cases n with
  | zero =>
    rw [List.replicate_one, List.singleton_append, collapse]
    rintro rest - rfl
    exact h rfl
  | succ n =>
    have hrun : (List.replicate n '/' ++ path).dropWhile (· = '/') = path := by
      rw [List.dropWhile_append_of_pos (by simp)]
      cases path with
      | nil => rfl
      | cons d path =>
        have hd : ¬d = '/' := fun hd => h (by rw [hd, List.head?_cons])
        rw [List.dropWhile_cons_of_neg (by simpa)]
    rw [List.replicate_succ, List.replicate_succ, List.cons_append, List.cons_append, collapse,
      hrun]

/-- The canonical spelling in two passes over the path. -/
theorem normalize_eq_collapse (path : List Char) :
    normalize path = collapse (path.map slashed) := by
  obtain ⟨outline, h⟩ := exists_outline path
  rw [h.normalize_eq]
  induction h with
  | nil => rw [List.map_nil, List.map_nil, collapse]
  | plain hc _ ih =>
    rw [List.map_cons, List.map_cons, slashed_of_plain hc,
      collapse_of_plain fun hslash => hc (.inl hslash), ← ih]
    rfl
  | @run separators path outline hne hall hend _ ih =>
    have hslashes : separators.map slashed = List.replicate (separators.length - 1 + 1) '/' := by
      rw [Nat.sub_add_cancel (List.length_pos_of_ne_nil hne), List.map_eq_replicate_iff]
      exact fun c hc => slashed_of_separator (hall c hc)
    have hhead : (path.map slashed).head? ≠ some '/' := by
      cases path with
      | nil => simp
      | cons d path =>
        have hd : ¬Separator d := hend d rfl
        simpa [slashed_of_plain hd] using fun hslash => hd (.inl hslash)
    rw [List.map_append, hslashes, collapse_slashes hhead, ← ih]
    rfl

/-! ### Spellings of one path -/

/-- The canonical spelling of a text is canonical for every spelling of the same outline and for
no other: no backslash and no two slashes side by side, every other character in its order, a
separator at either end as one slash. It is its own canonical spelling, and what is joined can be
made canonical before. -/
theorem same_text_iff_same_outline (a b : String) :
    ((ofString a).text = (ofString b).text ↔
      ∃ outline, Outline a.toList outline ∧ Outline b.toList outline) ∧
    ('\\' ∉ (ofString a).text.toList ∧ ¬['/', '/'] <:+: (ofString a).text.toList) ∧
    (ofString a).text.toList.filter (¬Separator ·) = a.toList.filter (¬Separator ·) ∧
    (ofString a).text.toList.head? = a.toList.head?.map slashed ∧
    (ofString a).text.toList.getLast? = a.toList.getLast?.map slashed ∧
    ofString (ofString a).text = ofString a ∧
    ofString (a ++ b) = ofString ((ofString a).text ++ (ofString b).text) := by
  have htext : ∀ a : String, (ofString a).text.toList = normalize a.toList := fun a =>
    String.toList_ofList
  refine ⟨?_, (ofString a).canonical, ?_, ?_, ?_, ofString_text _, ?_⟩
  · rw [← String.toList_inj, htext, htext]
    constructor
    · intro h
      exact ⟨_, outline_iff.mpr rfl, outline_iff.mpr (by rw [h])⟩
    · rintro ⟨outline, ha, hb⟩
      rw [ha.normalize_eq, hb.normalize_eq]
  · rw [htext, filter_normalize]
  · rw [htext, head?_normalize]
  · rw [htext, getLast?_normalize]
  · apply ext
    simp only [ofString, String.toList_append, String.toList_ofList]
    rw [normalize_append]

example : (ofString "\\/a//b\\\\/c/").text = "/a/b/c/" := by decide

end SourcePath
end DiagnosticWatch
