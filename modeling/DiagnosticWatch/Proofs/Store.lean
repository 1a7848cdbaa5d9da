/-
# The store is a map

Whatever was put into a store, and however often it was cleared, its queries
answer as the map does that holds, for each path, the latest report put on it
since the store was last cleared (`Store.reported`). Paths are spelled in any
way, both when a report is put in and when it is asked for. Only the order of
the reports themselves tells more than the map: it is that of their last
putting in.

Key definitions: `Store.Call`, `Store.after`, `Store.reported`,
`Store.putSince`, `Store.Mirrors`, `Store.SameAnswers`.
Key theorems: `Store.at?_after`, `Store.paths_after`, `Store.answers_of_calls`.
-/
import DiagnosticWatch.Store
import Mathlib.Data.Finmap
import Mathlib.Data.Finset.Sort

namespace DiagnosticWatch

namespace SourcePath

/-- The order of the texts of two paths, by their code points. -/
def Precedes (p q : SourcePath) : Prop :=
  p.text ≤ q.text

instance : DecidableRel Precedes := fun p q => inferInstanceAs (Decidable (p.text ≤ q.text))

instance : IsTrans SourcePath Precedes := ⟨fun _ _ _ => String.le_trans⟩

instance : Std.Antisymm Precedes := ⟨fun _ _ h h' => ext (String.le_antisymm h h')⟩

instance : Std.Total Precedes := ⟨fun p q => String.le_total p.text q.text⟩

end SourcePath

namespace Store

/-- What changes a store. -/
inductive Call where
  /-- A report on a path, in any spelling, is put in. -/
  | put (path : String) (diagnostics : List Diagnostic)
  | clear

/-- What a call makes of a store. -/
def Call.run (store : Store) : Call → Store
  | .put path diagnostics => store.put (.of path diagnostics)
  | .clear => store.clear.2

/-- A new store after some calls. -/
def after (calls : List Call) : Store :=
  calls.foldl Call.run empty

/-- A map from paths to reports. -/
abbrev Reported := Finmap fun _ : SourcePath => Report

/-- What a call makes of the map of the latest reports. -/
def Call.note (m : Reported) : Call → Reported
  | .put path diagnostics => m.insert (.ofString path) (.of path diagnostics)
  | .clear => ∅

/-- For each path the latest report put on it since the last clearing. -/
def reported (calls : List Call) : Reported :=
  calls.foldl Call.note ∅

/-- What a call makes of the paths on which reports were put since the last clearing. -/
def Call.spell (paths : List SourcePath) : Call → List SourcePath
  | .put path _ => paths ++ [.ofString path]
  | .clear => []

/-- The paths on which reports were put since the last clearing, in order. -/
def putSince (calls : List Call) : List SourcePath :=
  calls.foldl Call.spell []

/-- The diagnostics of the report on a path; none if there is no report. -/
def Reported.diagnostics (m : Reported) (p : SourcePath) : List Diagnostic :=
  match m.lookup p with
  | some report => report.diagnostics
  | none => []

/-- The store answers every query as the map does. -/
structure Mirrors (store : Store) (m : Reported) : Prop where
  get? : ∀ path, store.get? path = m.lookup (.ofString path)
  contains : ∀ path, store.contains path = true ↔ store.get? path ≠ none
  size : store.size = m.keys.card
  /-- Every entry of the map is there once. -/
  reports : store.reports.Nodup ∧ ∀ report, report ∈ store.reports ↔
    m.lookup report.path = some report
  all : store.all = (m.keys.sort SourcePath.Precedes).flatMap fun p =>
    (Reported.diagnostics m p).map (p, ·)
  onLine : ∀ path line, store.onLine path line =
    (store.all.filter fun (p, d) => p = .ofString path ∧ (d.start.line : Int) = line).map Prod.snd
  isClean : ∀ path, store.isClean path = true ↔
    .ofString path ∈ m ∧ ∀ d, (.ofString path, d) ∉ store.all
  hasErrors : store.hasErrors = true ↔ ∃ p d, (p, d) ∈ store.all ∧ d.severity = .error
  clear : store.clear.1 = true ↔ store.size ≠ 0

/-- The two stores answer every query alike, but for the order of the reports. -/
structure SameAnswers (s t : Store) : Prop where
  get? : ∀ path, s.get? path = t.get? path
  contains : ∀ path, s.contains path = t.contains path
  size : s.size = t.size
  reports : s.reports.Perm t.reports
  all : s.all = t.all
  onLine : ∀ path line, s.onLine path line = t.onLine path line
  isClean : ∀ path, s.isClean path = t.isClean path
  hasErrors : s.hasErrors = t.hasErrors
  clear : s.clear.1 = t.clear.1

variable {store : Store} {m : Reported} {p : SourcePath} {report : Report} {l : List Report}

/-! ### Looking up -/

/-- The latest report on a path. -/
def at? (store : Store) (p : SourcePath) : Option Report :=
  store.reports.find? (·.path = p)

theorem get?_eq (store : Store) (path : String) : store.get? path = store.at? (.ofString path) := rfl

/-- Among reports on different paths, the one on a path is the one that is found. -/
theorem find?_path_iff (hl : (l.map Report.path).Nodup) :
    l.find? (·.path = p) = some report ↔ report ∈ l ∧ report.path = p := by
  constructor
  · intro h
    exact ⟨List.mem_of_find?_eq_some h, by simpa using List.find?_some h⟩
  · rintro ⟨hr, rfl⟩
    have hsome : (l.find? (·.path = report.path)).isSome = true :=
      List.find?_isSome.mpr ⟨report, hr, by simp⟩
    obtain ⟨found, hfound⟩ := Option.isSome_iff_exists.mp hsome
    have hpath : found.path = report.path := by simpa using List.find?_some hfound
    rw [hfound, List.inj_on_of_nodup_map hl (List.mem_of_find?_eq_some hfound) hr hpath]

theorem at?_eq_some_iff : store.at? p = some report ↔ report ∈ store.reports ∧ report.path = p :=
  find?_path_iff store.distinct

/-- A report that is put in hides the earlier one on its path, and no other. -/
theorem at?_put (store : Store) (report : Report) (p : SourcePath) :
    (store.put report).at? p = if report.path = p then some report else store.at? p := by
  unfold at? put
  rw [List.find?_append]
  by_cases h : report.path = p
  · have hnone : (store.reports.filter (·.path ≠ report.path)).find? (·.path = p) = none := by
      simp [List.find?_eq_none, h]
    rw [hnone]
    simp [h]
  · have hothers : (store.reports.filter (·.path ≠ report.path)).find? (·.path = p) =
        store.reports.find? (·.path = p) := by
      rw [List.find?_filter]
      congr 1
      funext r
      by_cases hr : r.path = p
      · simp [hr, Ne.symm h]
      · simp [hr]
    rw [hothers]
    simp [h]

/-- The store and the map hold the same reports. -/
def Holds (store : Store) (m : Reported) : Prop :=
  ∀ p, store.at? p = m.lookup p

theorem Holds.run (h : Holds store m) (call : Call) : Holds (call.run store) (call.note m) := by
  intro p
  cases call with
  | put path diagnostics =>
    show (store.put _).at? p = (m.insert _ _).lookup p
    have hof : (Report.of path diagnostics).path = .ofString path := rfl
    rw [at?_put, h p, hof]
    by_cases hp : SourcePath.ofString path = p
    · subst hp
      rw [if_pos rfl, Finmap.lookup_insert]
    · rw [if_neg hp, Finmap.lookup_insert_of_ne _ (Ne.symm hp)]
  | clear => rfl

theorem Holds.foldl (h : Holds store m) (calls : List Call) :
    Holds (calls.foldl Call.run store) (calls.foldl Call.note m) := by
  induction calls generalizing store m with
  | nil => exact h
  | cons call calls ih => exact ih (h.run call)

/-- A store holds for each path the latest report put on it since the last clearing. -/
theorem at?_after (calls : List Call) (p : SourcePath) :
    (after calls).at? p = (reported calls).lookup p :=
  Holds.foldl (fun _ => rfl) calls p

/-! ### The order of the reports -/

theorem dedup_concat {α : Type} [DecidableEq α] (l : List α) (a : α) :
    (l ++ [a]).dedup = l.dedup.filter (· ≠ a) ++ [a] := by
  induction l with
  | nil => simp
  | cons b l ih =>
    rw [List.cons_append, List.dedup_cons, List.dedup_cons]
    by_cases hb : b ∈ l
    · rw [if_pos hb, if_pos (List.mem_append_left _ hb), ih]
    · by_cases hab : b = a
      · subst hab
        rw [if_pos (by simp), if_neg hb, ih]
        simp
      · rw [if_neg (by simp [hb, hab]), if_neg hb, ih, List.filter_cons_of_pos (by simpa using hab)]
        rfl

/-- Putting a report in moves its path to the end. -/
theorem paths_put (store : Store) (report : Report) :
    (store.put report).reports.map Report.path =
      (store.reports.map Report.path).filter (· ≠ report.path) ++ [report.path] := by
  simp [put, List.filter_map, Function.comp_def]

/-- The reports stand in the order in which each was last put in. -/
theorem paths_after (calls : List Call) :
    (after calls).reports.map Report.path = (putSince calls).dedup := by
  have hfold : ∀ (store : Store) (paths : List SourcePath),
      store.reports.map Report.path = paths.dedup →
      (calls.foldl Call.run store).reports.map Report.path =
        (calls.foldl Call.spell paths).dedup := by
    induction calls with
    | nil => exact fun _ _ h => h
    | cons call calls ih =>
      intro store paths h
      refine ih _ _ ?_
      cases call with
      | put path diagnostics =>
        show (store.put _).reports.map _ = (paths ++ [_]).dedup
        rw [paths_put, h, dedup_concat]
        rfl
      | clear => rfl
  exact hfold empty [] rfl

/-! ### What follows for the queries -/

theorem Holds.mem_iff (h : Holds store m) : report ∈ store.reports ↔
    m.lookup report.path = some report := by
  rw [← h, at?_eq_some_iff]
  simp

/-- The paths that have a report are those of the map. -/
theorem Holds.mem_paths_iff (h : Holds store m) :
    p ∈ store.reports.map Report.path ↔ p ∈ m.keys := by
  rw [Finmap.mem_keys, Finmap.mem_iff]
  constructor
  · intro hp
    obtain ⟨report, hr, rfl⟩ := List.mem_map.mp hp
    exact ⟨report, h.mem_iff.mp hr⟩
  · rintro ⟨report, hr⟩
    rw [← h, at?_eq_some_iff] at hr
    exact List.mem_map.mpr ⟨report, hr⟩

theorem Holds.size (h : Holds store m) : store.size = m.keys.card := by
  have hkeys : (store.reports.map Report.path).toFinset = m.keys := by
    ext p
    rw [List.mem_toFinset, h.mem_paths_iff]
  rw [← hkeys, List.toFinset_card_of_nodup store.distinct, List.length_map]
  rfl

theorem nodup_reports (store : Store) : store.reports.Nodup :=
  List.Nodup.of_map _ store.distinct

theorem byPath_perm (store : Store) : store.byPath.Perm store.reports :=
  List.mergeSort_perm _ _

theorem distinct_byPath (store : Store) : (store.byPath.map Report.path).Nodup :=
  ((byPath_perm store).map Report.path).nodup_iff.mpr store.distinct

/-- The paths in their order are the sorted ones of the map. -/
theorem Holds.paths_byPath (h : Holds store m) :
    store.byPath.map Report.path = m.keys.sort SourcePath.Precedes := by
  have hsorted : (store.byPath.map Report.path).Pairwise SourcePath.Precedes := by
    rw [List.pairwise_map]
    refine (List.pairwise_mergeSort ?_ ?_ _).imp ?_
    · intro a b c hab hbc
      simp only [decide_eq_true_eq] at *
      exact String.le_trans hab hbc
    · intro a b
      simpa using String.le_total a.path.text b.path.text
    · intro a b hab
      exact of_decide_eq_true hab
  refine List.Perm.eq_of_pairwise' hsorted (Finset.pairwise_sort _ _) ?_
  rw [List.perm_ext_iff_of_nodup (distinct_byPath store) (Finset.sort_nodup _ _)]
  intro p
  rw [((byPath_perm store).map Report.path).mem_iff, h.mem_paths_iff, Finset.mem_sort]

theorem Holds.all (h : Holds store m) : store.all =
    (m.keys.sort SourcePath.Precedes).flatMap fun p => (Reported.diagnostics m p).map (p, ·) := by
  unfold Store.all
  rw [← h.paths_byPath, List.flatMap_map]
  refine List.flatMap_congr fun report hr => ?_
  have hlook := h.mem_iff.mp ((byPath_perm store).mem_iff.mp hr)
  simp [Reported.diagnostics, hlook]

/-- Of all diagnostics, those of a path are those of the report on it. -/
theorem filter_all (store : Store) (p : SourcePath) :
    store.all.filter (·.1 = p) =
      match store.at? p with
      | some report => report.diagnostics.map (p, ·)
      | none => [] := by
  have hat : store.at? p = store.byPath.find? (·.path = p) := by
    ext report
    rw [at?_eq_some_iff, find?_path_iff (distinct_byPath store), (byPath_perm store).mem_iff]
  have hlist : ∀ l : List Report, (l.map Report.path).Nodup →
      (l.flatMap fun report => report.diagnostics.map (report.path, ·)).filter (·.1 = p) =
        match l.find? (·.path = p) with
        | some report => report.diagnostics.map (p, ·)
        | none => [] := by
    intro l hl
    induction l with
    | nil => rfl
    | cons first l ih =>
      rw [List.map_cons, List.nodup_cons] at hl
      rw [List.flatMap_cons, List.filter_append, ih hl.2]
      by_cases hp : first.path = p
      · -- No other report is on the path.
        have hnone : l.find? (·.path = p) = none := by
          rw [List.find?_eq_none]
          intro r hr hpath
          exact hl.1 (List.mem_map.mpr ⟨r, hr, by simpa [hp] using hpath⟩)
        simp [hp, hnone, List.filter_map, Function.comp_def]
      · simp [hp, List.filter_map, Function.comp_def]
  rw [hat]
  exact hlist store.byPath (distinct_byPath store)

theorem mem_all_iff {d : Diagnostic} :
    (p, d) ∈ store.all ↔ ∃ report, store.at? p = some report ∧ d ∈ report.diagnostics := by
  have hfilter : (p, d) ∈ store.all ↔ (p, d) ∈ store.all.filter (·.1 = p) := by
    simp
  rw [hfilter, filter_all]
  cases store.at? p <;> simp

theorem onLine_eq (store : Store) (path : String) (line : Int) : store.onLine path line =
    (store.all.filter fun (p, d) => p = .ofString path ∧ (d.start.line : Int) = line).map
      Prod.snd := by
  have hsplit : (store.all.filter fun (p, d) =>
      p = .ofString path ∧ (d.start.line : Int) = line) =
      (store.all.filter (·.1 = .ofString path)).filter
        fun (_, d) => (d.start.line : Int) = line := by
    rw [List.filter_filter]
    congr 1
    funext x
    simp [Bool.and_comm]
  rw [hsplit, filter_all]
  unfold Store.onLine
  rw [get?_eq]
  cases store.at? (.ofString path) with
  | none => rfl
  | some report =>
    simp only [List.filter_map, List.map_map, Function.comp_def, List.map_id']
    rfl

theorem isClean_iff (store : Store) (path : String) : store.isClean path = true ↔
    store.at? (.ofString path) ≠ none ∧ ∀ d, (.ofString path, d) ∉ store.all := by
  simp only [mem_all_iff]
  unfold Store.isClean
  rw [get?_eq]
  cases store.at? (.ofString path) with
  | none => simp
  | some report => simp [Report.isClean, List.eq_nil_iff_forall_not_mem]

theorem hasErrors_iff (store : Store) : store.hasErrors = true ↔
    ∃ p d, (p, d) ∈ store.all ∧ d.severity = .error := by
  simp only [mem_all_iff, Store.hasErrors, List.any_eq_true, at?_eq_some_iff, Report.count,
    bne_iff_ne, ne_eq, List.countP_eq_zero, decide_eq_true_eq, not_forall, not_not]
  constructor
  · rintro ⟨report, hr, d, hd, herror⟩
    exact ⟨report.path, d, ⟨report, ⟨hr, rfl⟩, hd⟩, herror⟩
  · rintro ⟨p, d, ⟨report, ⟨hr, -⟩, hd⟩, herror⟩
    exact ⟨report, hr, d, hd, herror⟩

theorem contains_iff (store : Store) (path : String) :
    store.contains path = true ↔ store.get? path ≠ none := by
  simp [contains, Option.isSome_iff_ne_none]

theorem clear_iff (store : Store) : store.clear.1 = true ↔ store.size ≠ 0 := by
  simp [clear, isEmpty, size]

theorem Holds.mirrors (h : Holds store m) : store.Mirrors m where
  get? path := h (.ofString path)
  contains := contains_iff store
  size := h.size
  reports := ⟨nodup_reports store, fun _ => h.mem_iff⟩
  all := h.all
  onLine := onLine_eq store
  isClean path := by
    rw [isClean_iff, h, ← Option.isSome_iff_ne_none, Finmap.lookup_isSome]
  hasErrors := hasErrors_iff store
  clear := clear_iff store

/-- The map decides the answers. -/
theorem Mirrors.sameAnswers {s t : Store} (hs : s.Mirrors m) (ht : t.Mirrors m) :
    SameAnswers s t := by
  have hget : ∀ path, s.get? path = t.get? path := fun path => (hs.get? path).trans (ht.get? path).symm
  have hsize : s.size = t.size := hs.size.trans ht.size.symm
  have hall : s.all = t.all := hs.all.trans ht.all.symm
  refine ⟨hget, fun path => ?_, hsize, ?_, hall, fun path line => ?_, fun path => ?_, ?_, ?_⟩
  · rw [Bool.eq_iff_iff, hs.contains, ht.contains, hget]
  · rw [List.perm_ext_iff_of_nodup hs.reports.1 ht.reports.1]
    exact fun report => (hs.reports.2 report).trans (ht.reports.2 report).symm
  · rw [hs.onLine, ht.onLine, hall]
  · rw [Bool.eq_iff_iff, hs.isClean, ht.isClean, hall]
  · rw [Bool.eq_iff_iff, hs.hasErrors, ht.hasErrors, hall]
  · rw [Bool.eq_iff_iff, hs.clear, ht.clear, hsize]

/-- After any calls a store answers every query as the map of the latest reports since the
last clearing, with the reports in the order in which each was last put in; and after calls
that leave the same map it answers alike, but for that order. -/
theorem answers_of_calls (calls : List Call) :
    (after calls).Mirrors (reported calls) ∧
    (after calls).reports.map Report.path = (putSince calls).dedup ∧
    ∀ others, reported others = reported calls → SameAnswers (after others) (after calls) := by
  have hmirrors : ∀ calls, (after calls).Mirrors (reported calls) := fun calls =>
    Holds.mirrors (at?_after calls)
  exact ⟨hmirrors calls, paths_after calls, fun others h => (h ▸ hmirrors others).sameAnswers
    (hmirrors calls)⟩

/-- A path is put in twice, spelled in two ways, before and after another one; it might as
well have been put in once. -/
theorem answers_of_reordered :
    SameAnswers (after [.put "/a\\b" [], .put "/c" [], .put "/a//b" []])
      (after [.put "/a/b" [], .put "/c" []]) := by
  have hback : SourcePath.ofString "/a\\b" = .ofString "/a/b" := by decide +kernel
  have htwice : SourcePath.ofString "/a//b" = .ofString "/a/b" := by decide +kernel
  have hne : SourcePath.ofString "/a/b" ≠ .ofString "/c" := by decide +kernel
  refine (answers_of_calls [.put "/a/b" [], .put "/c" []]).2.2 _ (Finmap.ext_lookup fun p => ?_)
  simp only [reported, List.foldl_cons, List.foldl_nil, Call.note, Report.of, hback, htwice]
  by_cases hc : p = .ofString "/c"
  · subst hc
    rw [Finmap.lookup_insert_of_ne _ hne.symm, Finmap.lookup_insert]
  · rw [Finmap.lookup_insert_of_ne _ hc]
    by_cases hb : p = .ofString "/a/b"
    · subst hb
      rw [Finmap.lookup_insert, Finmap.lookup_insert]
    · simp [Finmap.lookup_insert_of_ne _ hc, Finmap.lookup_insert_of_ne _ hb]

end Store
end DiagnosticWatch
