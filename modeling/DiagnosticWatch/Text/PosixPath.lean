/-
# Paths of directories

A path is shown without needless parts: empty and `.` parts vanish, with them
a trailing slash, and `..` stays. Leading slashes are one, except that exactly
two stay two. A path without parts is `.`, or its leading slashes alone.

Key definitions: `PosixPath.root`, `PosixPath.parts`, `PosixPath.simplify`.
-/
import DiagnosticWatch.Settings.Loopback

namespace DiagnosticWatch
namespace PosixPath

/-- The leading slashes of a path. -/
def root (path : List Char) : List Char :=
  match (path.takeWhile (· = '/')).length with
  | 0 => []
  | 2 => ['/', '/']
  | _ => ['/']

/-- The parts of a path that count. -/
def parts (path : List Char) : List (List Char) :=
  (Loopback.fields '/' path).filter fun part => part ≠ [] ∧ part ≠ ['.']

/-- A path as it is shown. -/
def simplify (path : List Char) : List Char :=
  let shown := root path ++ ['/'].intercalate (parts path)
  if shown.isEmpty then ['.'] else shown

end PosixPath
end DiagnosticWatch
