/-
# Reading the command line

Options may come in any order; the last of a repeated one wins. Short options
without a value may be written in one word. An option with a value takes it
from its own word or from the next one, if that is plain. Words that are left
over are an error, told after every option has been read. Asking for help ends
the reading at once.

Key definitions: `Options`, `OptionsError`, `Options.read`, `Options.members`.
-/
import DiagnosticWatch.CommandLine.Option
import DiagnosticWatch.Json.Value
import DiagnosticWatch.Text.IntegerText
import DiagnosticWatch.Text.PosixPath
import DiagnosticWatch.Text.Quoted

namespace DiagnosticWatch

/-- The value of an option. -/
inductive Given (α : Type) where
  /-- The option was not given. -/
  | absent
  /-- The option was given the terminator as its value, which is none. -/
  | empty
  | value (a : α)
deriving Repr, DecidableEq

/-- What the command line asks for. -/
structure Options where
  host : Given String := .absent
  port : Given Int := .absent
  configDir : Given String := .absent
  verbose : Bool := false
deriving Repr, DecidableEq

/-- Why a command line is refused. -/
inductive OptionsError where
  | ambiguous (word : String) (spellings : List String)
  | valueMissing (flag : Flag)
  | valueUnwanted (flag : Flag) (value : String)
  | portNoInteger (value : String)
  | leftOver (words : List String)
deriving Repr, DecidableEq

/-- The wording of an error. -/
def OptionsError.message : OptionsError → String
  | .ambiguous word spellings =>
    s!"ambiguous option: {word} could match " ++ ", ".intercalate spellings
  | .valueMissing flag => s!"argument {flag.name}: expected one argument"
  | .valueUnwanted flag value =>
    s!"argument {flag.name}: ignored explicit argument {Quoted.quote value}"
  | .portNoInteger value =>
    s!"argument {Flag.port.name}: invalid int value: {Quoted.quote value}"
  | .leftOver words => "unrecognized arguments: " ++ " ".intercalate words

/-- The last line that an error shows. -/
def OptionsError.lastLine (e : OptionsError) : String :=
  let text := s!"angelscript-link: error: {e.message}".toList
  String.ofList (text.reverse.takeWhile (· ≠ '\n')).reverse

namespace Options

/-- The value that the characters are; the terminator is none. -/
def given (cs : List Char) : Given String :=
  if cs = ['-', '-'] then .empty else .value (String.ofList cs)

/-- Sets an option to a value. -/
def set (o : Options) (flag : Flag) (cs : List Char) : Except OptionsError Options :=
  match flag, given cs with
  | .host, value => .ok { o with host := value }
  | .configDir, value => .ok { o with configDir := value }
  | .port, .value text =>
    match IntegerText.ofChars? text.toList with
    | some port => .ok { o with port := .value port }
    | none => .error (.portNoInteger text)
  | .port, _ => .ok { o with port := .empty }
  | .help, _ | .verbose, _ => .ok o

/-- The options written in one word. All but the last take no value; the last may
have one attached. `attached` is what stands after the option's own letter. -/
def cluster (flag : Flag) (short : Bool) : (attached : List Char) →
    Except OptionsError (List Flag × Flag × Option (List Char))
  | [] =>
    if flag.takesValue then .ok ([], flag, some [])
    else .error (.valueUnwanted flag "")
  | c :: cs =>
    if flag.takesValue then .ok ([], flag, some (c :: cs))
    else if short then
      match Flag.ofSpelling? (String.ofList ['-', c]), cs with
      | some next, [] => .ok ([flag], next, none)
      | some next, cs =>
        match cluster next short cs with
        | .ok (before, last, value) => .ok (flag :: before, last, value)
        | .error e => .error e
      | none, _ => .error (.valueUnwanted flag (String.ofList (c :: cs)))
    else .error (.valueUnwanted flag (String.ofList (c :: cs)))

/-- The options that a reading of a word gives. -/
def ofReading (r : Reading) : Except OptionsError (List Flag × Flag × Option (List Char)) :=
  match r.attached with
  | none => .ok ([], r.flag, none)
  | some cs => cluster r.flag (r.spelling.length = 2) cs

/-- Sets options without a value; nothing if help is asked for. -/
def setAll (o : Options) (flags : List Flag) : Option Options :=
  if flags.contains .help then none
  else some { o with verbose := o.verbose || flags.contains .verbose }

/-- Reads words whose meaning is known. `left` are the words left over, last word
first. Nothing means that help is asked for. -/
def readWords (o : Options) (left : List String) :
    List (String × Word) → Except OptionsError (Option Options)
  | [] => if left.isEmpty then .ok (some o) else .error (.leftOver left.reverse)
  | (_, .option r) :: words => do
    let (before, last, value) ← ofReading r
    if !last.takesValue then
      match o.setAll (before ++ [last]) with
      | none => return none
      | some o => readWords o left words
    else
      match value, words with
      | some value, words =>
        match o.setAll before with
        | none => return none
        | some o => readWords (← o.set last value) left words
      | none, (next, .plain) :: words =>
        match o.setAll before with
        | none => return none
        | some o => readWords (← o.set last next.toList) left words
      | none, _ => throw (.valueMissing last)
  | (word, _) :: words => readWords o (word :: left) words

/-- How the words read one after the other. -/
def wordsOf : List String → Except OptionsError (List (String × Word))
  | [] => .ok []
  | word :: words =>
    match Word.ofText word with
    | .error spellings => .error (.ambiguous word spellings)
    | .ok .terminator => .ok ((word, .terminator) :: words.map (·, .plain))
    | .ok reading =>
      match wordsOf words with
      | .ok more => .ok ((word, reading) :: more)
      | .error e => .error e

/-- Reads a command line. Nothing means that help is asked for. -/
def read (arguments : List String) : Except OptionsError (Option Options) := do
  readWords {} [] (← wordsOf arguments)

/-- The directory that may hold local settings, as it is shown: the current one
unless another is given, and none for the terminator. -/
def directory? (o : Options) : Option String :=
  match o.configDir with
  | .absent => some "."
  | .empty => none
  | .value path => some (String.ofList (PosixPath.simplify path.toList))

/-- The members of settings that the options give. The terminator gives an empty
list, which is neither a host nor a port. -/
def members (o : Options) : Json.Members :=
  let host := match o.host with
    | .absent => Json.null
    | .empty => .list []
    | .value host => .text host
  let port := match o.port with
    | .absent => Json.null
    | .empty => .list []
    | .value port => .number (.int port)
  [("host", host), ("port", port)]

end Options
end DiagnosticWatch
