/-
# Integers as text

An integer is written as an optional sign and decimal digits of any script,
where single underscores may stand between two digits and blanks around the
whole. Leading zeros do not matter. More than `maxDigits` digits are refused.

Key definitions: `IntegerText.isBlank`, `IntegerText.digits?`,
`IntegerText.ofChars?`.
-/
import DiagnosticWatch.Text.DecimalDigit

namespace DiagnosticWatch
namespace IntegerText

/-- The most digits that are read. -/
def maxDigits : Nat := 4300

/-- Whether a character may stand around an integer. -/
def isBlank (c : Char) : Bool :=
  let n := c.toNat
  (0x9 ≤ n && n ≤ 0xd) || n = 0x20 || n = 0x85 || n = 0xa0 || n = 0x1680 ||
    (0x2000 ≤ n && n ≤ 0x200a) || n = 0x2028 || n = 0x2029 || n = 0x202f || n = 0x205f || n = 0x3000

/-- The values of digits between which single underscores may stand, first digit
last; `read` holds those already read. -/
def digits? (read : List Nat) : List Char → Option (List Nat)
  | [] => some read
  | '_' :: c :: cs =>
    if read.isEmpty then none
    else match DecimalDigit.value? c with
      | some d => digits? (d :: read) cs
      | none => none
  | c :: cs =>
    match DecimalDigit.value? c with
    | some d => digits? (d :: read) cs
    | none => none

/-- The number of digits given first digit last. -/
def ofDigits (digits : List Nat) : Nat :=
  digits.foldr (fun d n => 10 * n + d) 0

/-- The characters without the blanks around them. -/
def bare (cs : List Char) : List Char :=
  ((cs.dropWhile isBlank).reverse.dropWhile isBlank).reverse

/-- The integer that the characters are. -/
def ofChars? (cs : List Char) : Option Int := do
  let (negative, digits) := match bare cs with
    | '-' :: ds => (true, ds)
    | '+' :: ds => (false, ds)
    | ds => (false, ds)
  let digits ← digits? [] digits
  guard (!digits.isEmpty && digits.length ≤ maxDigits)
  return if negative then -(ofDigits digits : Int) else ofDigits digits

end IntegerText
end DiagnosticWatch
