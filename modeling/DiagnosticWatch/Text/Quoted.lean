/-
# Quoted text

How a text is shown inside a message: between single quotes, or between
double quotes if it holds a single quote and no double quote. A backslash and
the quote in use are escaped, as are the characters that are not printable.

Key definitions: `Quoted.mark`, `Quoted.escape`, `Quoted.quote`.
-/
import DiagnosticWatch.Text.Printable

namespace DiagnosticWatch
namespace Quoted

/-- The quote that encloses a text. -/
def mark (text : List Char) : Char :=
  if text.contains '\'' && !text.contains '"' then '"' else '\''

/-- The lowest `width` hexadecimal digits of a number, most significant first. -/
def hex : (width : Nat) → Nat → List Char
  | 0, _ => []
  | width + 1, n => hex width (n / 16) ++ [Nat.digitChar (n % 16)]

/-- How one character is written between quotes `mark`. -/
def escape (mark c : Char) : List Char :=
  if c = mark ∨ c = '\\' then ['\\', c]
  else if c = '\n' then ['\\', 'n']
  else if c = '\r' then ['\\', 'r']
  else if c = '\t' then ['\\', 't']
  else if Printable.isPrintable c then [c]
  else if c.toNat < 0x100 then '\\' :: 'x' :: hex 2 c.toNat
  else if c.toNat < 0x10000 then '\\' :: 'u' :: hex 4 c.toNat
  else '\\' :: 'U' :: hex 8 c.toNat

/-- A text between quotes. -/
def quote (text : String) : String :=
  let mark := mark text.toList
  String.ofList (mark :: text.toList.flatMap (escape mark) ++ [mark])

end Quoted
end DiagnosticWatch
