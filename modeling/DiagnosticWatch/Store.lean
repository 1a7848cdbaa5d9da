/-
# The report store

The store keeps the latest report of every source file, ordered by when each
was last put in. A path is looked up in any spelling.

Key definitions: `Store`, `Store.put`, `Store.clear`, `Store.get?`, `Store.all`.
-/
import DiagnosticWatch.Report.Basic

namespace DiagnosticWatch

/-- The latest reports, at most one for each path, the latest put last. -/
structure Store where
  reports : List Report
  distinct : (reports.map Report.path).Nodup
deriving Repr, DecidableEq

namespace Store

/-- A store without reports. -/
def empty : Store := ⟨[], .nil⟩

/-- The number of source files with a report. -/
def size (store : Store) : Nat :=
  store.reports.length

/-- Whether no source file has a report. -/
def isEmpty (store : Store) : Bool :=
  store.reports.isEmpty

/-- A store without reports is the empty one. -/
theorem eq_empty {store : Store} (h : store.isEmpty = true) : store = empty := by
  cases store
  cases List.isEmpty_iff.mp h
  rfl

/-- Replaces what is stored for the path of a report. -/
def put (store : Store) (report : Report) : Store where
  reports := store.reports.filter (·.path ≠ report.path) ++ [report]
  distinct := by
    rw [List.map_append, List.nodup_append]
    refine ⟨(List.filter_sublist.map _).nodup store.distinct, by simp, ?_⟩
    intro p mem q eq
    simp only [List.map_cons, List.map_nil, List.mem_singleton] at eq
    simp only [List.mem_map, List.mem_filter] at mem
    obtain ⟨r, ⟨_, ne⟩, rfl⟩ := mem
    subst eq
    simpa using ne

/-- Drops every report, and answers whether there was any. -/
def clear (store : Store) : Bool × Store :=
  (!store.isEmpty, .empty)

/-- The latest report on a path, in any spelling. -/
def get? (store : Store) (path : String) : Option Report :=
  store.reports.find? (·.path = .ofString path)

/-- Whether a path has a report. -/
def contains (store : Store) (path : String) : Bool :=
  (store.get? path).isSome

/-- The reports in the order of their paths. -/
def byPath (store : Store) : List Report :=
  store.reports.mergeSort fun a b => a.path.text ≤ b.path.text

/-- Every diagnostic with its path, in the order of the paths. -/
def all (store : Store) : List (SourcePath × Diagnostic) :=
  store.byPath.flatMap fun report => report.diagnostics.map (report.path, ·)

/-- The diagnostics of a line, counted from 0, of a path. -/
def onLine (store : Store) (path : String) (line : Int) : List Diagnostic :=
  match store.get? path with
  | some report => report.onLine line
  | none => []

/-- Whether a path was reported without any diagnostic. -/
def isClean (store : Store) (path : String) : Bool :=
  match store.get? path with
  | some report => report.isClean
  | none => false

/-- Whether any report holds an error. -/
def hasErrors (store : Store) : Bool :=
  store.reports.any fun report => report.count .error != 0

end Store
end DiagnosticWatch
