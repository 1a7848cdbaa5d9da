/-
# Reading JSON

A document is read token by token. The reader keeps the lists and objects that
are open, innermost first, and what may come next. How deep they may be nested
and what numerals stand for is a matter of the limits.

Key definitions: `Json.Limits`, `Json.Reading`, `Json.Reading.push?`,
`Json.ofTokens?`, `Json.ofText?`, `Json.ofBytes?`.
-/
import DiagnosticWatch.Json.Token
import DiagnosticWatch.Json.Value
import DiagnosticWatch.Text.Utf8

namespace DiagnosticWatch
namespace Json

/-- What a reader accepts. -/
structure Limits where
  /-- How many containers may be open at a time. -/
  depth : Nat
  /-- The number that a numeral stands for, if there is one. -/
  number : Numeral → Option Number

/-- Settings files may be nested 1024 deep, and hold integers of 64 bits and finite
doubles. -/
def Limits.settings : Limits := ⟨1024, Numeral.bounded?⟩

/-- A container whose end has not been read. -/
inductive Container where
  /-- A list with its items, last item first. -/
  | list (items : List Json)
  /-- An object with its members and the key whose value is read. -/
  | object (members : Members) (key : String)
deriving Inhabited

/-- What may come next. -/
inductive Expected where
  /-- A value, or the end of the list if it may end here. -/
  | value (mayEnd : Bool)
  /-- A key of the object with these members, or its end if it may end here. -/
  | key (members : Members) (mayEnd : Bool)
  /-- The colon after a key. -/
  | colon (members : Members) (key : String)
  /-- A comma or the end of the container, after this value. -/
  | separator (value : Json)

/-- A document read up to some token. -/
structure Reading where
  containers : List Container
  expected : Expected

namespace Reading

/-- A document of which nothing has been read. -/
def empty : Reading := ⟨[], .value false⟩

/-- Opens a container, if there may be one more. -/
def open? (limits : Limits) (containers : List Container) (container : Container)
    (expected : Expected) : Option Reading :=
  if containers.length < limits.depth then some ⟨container :: containers, expected⟩ else none

/-- Reads a token where a value is expected. -/
def value? (limits : Limits) (containers : List Container) :
    Token → Option Reading
  | .null => some ⟨containers, .separator .null⟩
  | .truth b => some ⟨containers, .separator (.number (.truth b))⟩
  | .numeral n => (limits.number n).map fun n => ⟨containers, .separator (.number n)⟩
  | .text s => some ⟨containers, .separator (.text s)⟩
  | .openList => open? limits containers (.list []) (.value true)
  | .openObject => open? limits containers (.object [] "") (.key [] true)
  | _ => none

/-- Reads the next token. -/
def push? (limits : Limits) (r : Reading) (token : Token) : Option Reading :=
  match r.expected, r.containers, token with
  | .value true, .list items :: outer, .closeList =>
    some ⟨outer, .separator (.list items.reverse)⟩
  | .value _, containers, token => value? limits containers token
  | .key members true, .object _ _ :: outer, .closeObject =>
    some ⟨outer, .separator (.object members)⟩
  | .key members _, containers, .text key => some ⟨containers, .colon members key⟩
  | .colon members key, .object _ _ :: outer, .colon =>
    some ⟨.object members key :: outer, .value false⟩
  | .separator value, .list items :: outer, .comma =>
    some ⟨.list (value :: items) :: outer, .value false⟩
  | .separator value, .list items :: outer, .closeList =>
    some ⟨outer, .separator (.list (value :: items).reverse)⟩
  | .separator value, .object members key :: outer, .comma =>
    some ⟨.object members key :: outer, .key (members.put key value) false⟩
  | .separator value, .object members key :: outer, .closeObject =>
    some ⟨outer, .separator (.object (members.put key value))⟩
  | _, _, _ => none

/-- The value of a document read to its end. -/
def finish? (r : Reading) : Option Json :=
  match r.containers, r.expected with
  | [], .separator value => some value
  | _, _ => none

end Reading

/-- The value that the tokens are. -/
def ofTokens? (limits : Limits) (tokens : List Token) : Option Json := do
  (← tokens.foldlM (Reading.push? limits) .empty).finish?

/-- The value that a text is. -/
def ofText? (limits : Limits) (text : List Char) : Option Json := do
  ofTokens? limits (← Token.lex? text)

/-- The value that the bytes of a settings file are. -/
def ofBytes? (bytes : List UInt8) : Option Json := do
  ofText? .settings (← Utf8.decode? bytes)

end Json
end DiagnosticWatch
