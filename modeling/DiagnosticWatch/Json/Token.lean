/-
# Tokens of JSON

Brackets, separators, words, numerals and texts, with blanks between them.
Control characters inside a text must be escaped, and an escaped surrogate
must be half of a pair.

Key definitions: `Token`, `Token.text?`, `Token.lex?`.
-/
import DiagnosticWatch.Json.Numeral

namespace DiagnosticWatch

/-- A token. -/
inductive Token where
  | openList
  | closeList
  | openObject
  | closeObject
  | comma
  | colon
  | null
  | truth (b : Bool)
  | numeral (n : Numeral)
  | text (s : String)
deriving Repr, DecidableEq

namespace Token

/-- The value of a hexadecimal digit. -/
def hexDigit? (c : Char) : Option Nat :=
  if '0' ≤ c ∧ c ≤ '9' then some (c.toNat - '0'.toNat)
  else if 'a' ≤ c ∧ c ≤ 'f' then some (c.toNat - 'a'.toNat + 10)
  else if 'A' ≤ c ∧ c ≤ 'F' then some (c.toNat - 'A'.toNat + 10)
  else none

/-- The value of four hexadecimal digits. -/
def unit? (a b c d : Char) : Option Nat := do
  return 4096 * (← hexDigit? a) + 256 * (← hexDigit? b) + 16 * (← hexDigit? c) + (← hexDigit? d)

/-- What a one-letter escape stands for. -/
def escaped? : Char → Option Char
  | '"' => some '"'
  | '\\' => some '\\'
  | '/' => some '/'
  | 'b' => some '\x08'
  | 'f' => some '\x0c'
  | 'n' => some '\n'
  | 'r' => some '\r'
  | 't' => some '\t'
  | _ => none

/-- The characters of a text up to its closing quote, after those already read
(last character first), and what follows the quote. -/
def text? : (read : List Char) → List Char → Option (List Char × List Char)
  | read, '"' :: rest => some (read.reverse, rest)
  | read, '\\' :: 'u' :: a :: b :: c :: d :: rest =>
    match unit? a b c d with
    | none => none
    | some high =>
      if 0xd800 ≤ high ∧ high < 0xdc00 then
        match rest with
        | '\\' :: 'u' :: e :: f :: g :: h :: rest =>
          match unit? e f g h with
          | none => none
          | some low =>
            if 0xdc00 ≤ low ∧ low < 0xe000 then
              let code := 0x10000 + (high - 0xd800) * 1024 + (low - 0xdc00)
              text? (Char.ofNat code :: read) rest
            else none
        | _ => none
      else if 0xdc00 ≤ high ∧ high < 0xe000 then none
      else text? (Char.ofNat high :: read) rest
  | read, '\\' :: c :: rest =>
    match escaped? c with
    | some c => text? (c :: read) rest
    | none => none
  | read, c :: rest => if c.toNat < 0x20 ∨ c = '\\' then none else text? (c :: read) rest
  | _, [] => none

/-- Whether a character may stand between tokens. -/
def isBlank (c : Char) : Bool :=
  c = ' ' || c = '\t' || c = '\n' || c = '\r'

/-- Whether a character may be part of a numeral. -/
def isNumeric (c : Char) : Bool :=
  c.isDigit || c = '-' || c = '+' || c = '.' || c = 'e' || c = 'E'

/-- The first token of `cs`, and what follows it. -/
def next? : List Char → Option (Token × List Char)
  | '[' :: cs => some (.openList, cs)
  | ']' :: cs => some (.closeList, cs)
  | '{' :: cs => some (.openObject, cs)
  | '}' :: cs => some (.closeObject, cs)
  | ',' :: cs => some (.comma, cs)
  | ':' :: cs => some (.colon, cs)
  | 'n' :: 'u' :: 'l' :: 'l' :: cs => some (.null, cs)
  | 't' :: 'r' :: 'u' :: 'e' :: cs => some (.truth true, cs)
  | 'f' :: 'a' :: 'l' :: 's' :: 'e' :: cs => some (.truth false, cs)
  | '"' :: cs => (text? [] cs).map fun (s, rest) => (.text (String.ofList s), rest)
  | cs =>
    let (span, rest) := cs.span isNumeric
    (Numeral.ofChars? span).map fun n => (.numeral n, rest)

/-- The tokens of `cs` after those already read (last token first); `steps` bounds
the number of characters looked at. -/
def lexWithin : (steps : Nat) → (read : List Token) → List Char → Option (List Token)
  | _, read, [] => some read.reverse
  | 0, _, _ :: _ => none
  | steps + 1, read, c :: cs =>
    if isBlank c then lexWithin steps read cs
    else match next? (c :: cs) with
      | some (token, rest) => lexWithin steps (token :: read) rest
      | none => none

/-- The tokens that the characters are. -/
def lex? (cs : List Char) : Option (List Token) :=
  lexWithin cs.length [] cs

end Token
end DiagnosticWatch
