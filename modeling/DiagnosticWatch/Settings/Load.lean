/-
# Settings from files

Two files may hold settings: a global one, and a local one whose members win.
Where no directory is worked in the local one is missing. A file that cannot be
read, or that holds no JSON object, is passed over with a notice, and if the
members of both do not make settings, the defaults hold. But first each file is
looked up, and a file system that refuses to say whether it is there ends the
loading.

Key definitions: `SettingsFile`, `Notice`, `Settings.load`.
-/
import DiagnosticWatch.Json.Reader
import DiagnosticWatch.Settings.Basic

namespace DiagnosticWatch

/-- What is found where a settings file may be. -/
inductive Content where
  | missing
  /-- The file system does not say whether the file is there, say because a directory on the
  way is closed to the program, or a name in the path is too long. -/
  | unreachable (why : String)
  /-- The file is there, and what it holds cannot be had. -/
  | unreadable
  | bytes (content : List UInt8)
deriving Repr, Inhabited

/-- A place for a settings file, and what is found there. -/
structure SettingsFile where
  path : String
  content : Content
deriving Repr, Inhabited

/-- What is told about loading settings. -/
inductive Notice where
  /-- The file at `path` cannot be read. -/
  | unreadable (path : String)
  /-- The file at `path` holds no object. -/
  | notObject (path : String)
  /-- The members make no settings. -/
  | invalid (e : SettingsError)
deriving Repr, DecidableEq

/-- The wording of a notice. It leaves open why a file cannot be read. -/
def Notice.message : Notice → String
  | .unreadable path => s!"Ignoring unreadable config {path}: *"
  | .notObject path => s!"Ignoring config {path}: expected a JSON object"
  | .invalid e => s!"Invalid link config, using defaults: {e.message}"

/-- The members that a file holds, and what is told about it. That the file is out of reach
is not forgiven. -/
def SettingsFile.members (file : SettingsFile) :
    Except SettingsError (Json.Members × List Notice) :=
  match file.content with
  | .missing => .ok ([], [])
  | .unreachable why => .error (.unreachable why)
  | .unreadable => .ok ([], [.unreadable file.path])
  | .bytes content =>
    match Json.ofBytes? content with
    | some (.object members) => .ok (members, [])
    | some _ => .ok ([], [.notObject file.path])
    | none => .ok ([], [.unreadable file.path])

namespace Settings

/-- The settings of an object, or the defaults with a notice. A host that is
neither a text nor counts as missing is not forgiven. -/
def orDefault (members : Json.Members) : Except SettingsError Settings × List Notice :=
  match ofKnown members with
  | .ok settings => (.ok settings, [])
  | .error (.hostNotText type) => (.error (.hostNotText type), [])
  | .error e => (.ok {}, [.invalid e])

/-- The settings of the two files, the members of the second one over those of the
first, with what is told about them. The second file is not looked up if the first one is
out of reach. -/
def load (globalFile localFile : SettingsFile) : Except SettingsError Settings × List Notice :=
  match globalFile.members with
  | .error e => (.error e, [])
  | .ok (below, first) =>
    match localFile.members with
    | .error e => (.error e, first)
    | .ok (above, second) =>
      let (settings, third) := orDefault (below.overlay above)
      (settings, first ++ second ++ third)

end Settings
end DiagnosticWatch
