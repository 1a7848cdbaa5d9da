/-
# Options of the command line

The options with their spellings, and how one word of the command line reads.
A word is an option if it is a spelling, a spelling with a value after an
equals sign, a beginning that only one long spelling has, or a short spelling
with more characters attached. What merely looks like an option is an unknown
one, except for negative numbers and what holds a space.

Key definitions: `Flag`, `Flag.spellings`, `Word`, `Word.ofText`.
-/
import DiagnosticWatch.Text.DecimalDigit

namespace DiagnosticWatch

/-- An option. -/
inductive Flag where
  | help
  | host
  | port
  | configDir
  | verbose
deriving Repr, DecidableEq

namespace Flag

/-- Every spelling with its option. -/
def spellings : List (String × Flag) :=
  [("-h", .help), ("--help", .help), ("--host", .host), ("--port", .port),
    ("--config-dir", .configDir), ("-v", .verbose), ("--verbose", .verbose)]

/-- The option of a spelling. -/
def ofSpelling? (spelling : String) : Option Flag :=
  spellings.lookup spelling

/-- The spellings of an option as messages name it. -/
def name (flag : Flag) : String :=
  "/".intercalate ((spellings.filter (·.2 = flag)).map (·.1))

/-- Whether an option takes a value. -/
def takesValue : Flag → Bool
  | .host | .port | .configDir => true
  | .help | .verbose => false

end Flag

/-- A way to read a word as an option: the option, its spelling and the value
attached to it. -/
structure Reading where
  flag : Flag
  spelling : String
  attached : Option (List Char)
deriving Repr, DecidableEq

/-- How a word of the command line reads. -/
inductive Word where
  /-- Neither an option nor the terminator. -/
  | plain
  /-- The terminator, after which every word is plain. -/
  | terminator
  | option (reading : Reading)
  /-- Like an option, but none. -/
  | unknown
deriving Repr, DecidableEq

namespace Word

/-- The characters in front of the first equals sign, and those after it. -/
def splitAtEquals? (cs : List Char) : Option (List Char × List Char) :=
  match cs.span (· ≠ '=') with
  | (before, _ :: after) => some (before, after)
  | _ => none

/-- The options of which a word that is no spelling may be the beginning. -/
def readings (cs : List Char) : List Reading :=
  match cs with
  | '-' :: '-' :: _ =>
    let (before, attached) := match splitAtEquals? cs with
      | some (before, after) => (before, some after)
      | none => (cs, none)
    Flag.spellings.filterMap fun (spelling, flag) =>
      if before.isPrefixOf spelling.toList then some ⟨flag, spelling, attached⟩ else none
  | '-' :: c :: more =>
    Flag.spellings.filterMap fun (spelling, flag) =>
      if spelling.toList = ['-', c] then some ⟨flag, spelling, some more⟩
      else if cs.isPrefixOf spelling.toList then some ⟨flag, spelling, none⟩
      else none
  | _ => []

/-- Whether all characters are decimal digits. -/
def allDigits (cs : List Char) : Bool :=
  cs.all fun c => (DecimalDigit.value? c).isSome

/-- Whether a word is a negative number, with or without a point. A line break may
follow it. -/
def isNegativeNumber (cs : List Char) : Bool :=
  match cs with
  | '-' :: cs =>
    let cs := if cs.getLast? = some '\n' then cs.dropLast else cs
    match cs.span (· ≠ '.') with
    | (whole, []) => !whole.isEmpty && allDigits whole
    | (whole, _ :: fraction) => allDigits whole && !fraction.isEmpty && allDigits fraction
  | _ => false

/-- How a word reads on its own; or the spellings between which it leaves open
what it means. -/
def ofText (word : String) : Except (List String) Word :=
  let cs := word.toList
  if word = "--" then .ok .terminator
  else if cs.head? ≠ some '-' then .ok .plain
  else match Flag.ofSpelling? word with
    | some flag => .ok (.option ⟨flag, word, none⟩)
    | none =>
      if cs.length = 1 then .ok .plain
      else
        let exact := (splitAtEquals? cs).bind fun (before, after) =>
          (Flag.ofSpelling? (String.ofList before)).map fun flag =>
            Reading.mk flag (String.ofList before) (some after)
        match exact, readings cs with
        | some reading, _ => .ok (.option reading)
        | none, [reading] => .ok (.option reading)
        | none, [] =>
          if isNegativeNumber cs ∨ cs.contains ' ' then .ok .plain else .ok .unknown
        | none, several => .error (several.map (·.spelling))

end Word
end DiagnosticWatch
