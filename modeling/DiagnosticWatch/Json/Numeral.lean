/-
# Numerals of JSON

A numeral is an optional minus sign, digits without a needless leading zero,
and optionally a fraction and an exponent. Without fraction and exponent it is
an integer.

Key definitions: `Numeral`, `Numeral.ofChars?`, `Numeral.exact`,
`Numeral.bounded?`.
-/
import DiagnosticWatch.Number.Basic

namespace DiagnosticWatch

/-- A numeral of value ±`mantissa`·10^`exponent`. -/
structure Numeral where
  negative : Bool
  mantissa : Nat
  exponent : Int
  /-- Whether it has neither fraction nor exponent. -/
  isInteger : Bool
deriving Repr, DecidableEq

namespace Numeral

/-- The number that a row of digits stands for. -/
def ofDigits (digits : List Char) : Nat :=
  digits.foldl (fun n d => 10 * n + (d.toNat - '0'.toNat)) 0

/-- A fraction in front of `cs`, and what follows it. -/
def fraction? : List Char → Option (List Char × List Char)
  | '.' :: cs =>
    let (digits, rest) := cs.span Char.isDigit
    if digits.isEmpty then none else some (digits, rest)
  | cs => some ([], cs)

/-- The exponent that is all of `cs`; nothing written counts as zero. -/
def exponent? : List Char → Option Int
  | [] => some 0
  | mark :: cs =>
    let (negative, digits) := match cs with
      | '-' :: ds => (true, ds)
      | '+' :: ds => (false, ds)
      | ds => (false, ds)
    if (mark = 'e' ∨ mark = 'E') ∧ !digits.isEmpty ∧ digits.all Char.isDigit then
      some (if negative then -(ofDigits digits : Int) else ofDigits digits)
    else none

/-- The numeral that the characters are. -/
def ofChars? (cs : List Char) : Option Numeral := do
  let (negative, cs) := match cs with
    | '-' :: rest => (true, rest)
    | rest => (false, rest)
  let (whole, tail) := cs.span Char.isDigit
  guard (!whole.isEmpty && (whole.length = 1 || whole.head? != some '0'))
  let (fraction, rest) ← fraction? tail
  let exponent ← exponent? rest
  return ⟨negative, ofDigits (whole ++ fraction), exponent - fraction.length, tail.isEmpty⟩

/-- The integer of an integer numeral. -/
def toInt (n : Numeral) : Int :=
  if n.negative then -(n.mantissa : Int) else n.mantissa

/-- The nearest double, infinite if it is too large. Exponents far beyond the
range of doubles are decided without computing the power. -/
def toFloat (n : Numeral) : Float :=
  let size := (Shortest.width n.mantissa : Int) + n.exponent
  let magnitude : Float :=
    if n.mantissa = 0 ∨ size < -400 then 0
    else if 400 < size then 1 / 0
    else if n.exponent < 0 then .ofScientific n.mantissa true n.exponent.natAbs
    else .ofScientific n.mantissa false n.exponent.natAbs
  if n.negative then -magnitude else magnitude

/-- The number as written: integers of any size. -/
def exact (n : Numeral) : Number :=
  if n.isInteger then .int n.toInt else .float n.toFloat

/-- The number within bounds: integers beyond 64 bits become doubles, and what is
too large for a double is none. -/
def bounded? (n : Numeral) : Option Number :=
  if n.isInteger ∧ -(Double.twoTo 63 : Int) ≤ n.toInt ∧ n.toInt < Double.twoTo 64 then
    some (.int n.toInt)
  else if n.toFloat.isInf then none
  else some (.float n.toFloat)

end Numeral
end DiagnosticWatch
