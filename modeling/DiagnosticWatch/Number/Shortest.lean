/-
# The fewest digits that read back

The decimal text of a double has the fewest digits that still name it and no
other double; of several such, the nearest. The doubles that a decimal names
form an interval around the value, with its ends if the mantissa is even. For
each number of digits only the two neighbours of the value on that decimal
grid can lie in the interval, so the first grid with a hit gives the digits.

Key definitions: `Shortest.digits`, `Shortest.text`.
-/
import DiagnosticWatch.Number.Double

namespace DiagnosticWatch
namespace Shortest

/-- The number of decimal digits of a positive number. -/
def width (n : Nat) : Nat :=
  (Nat.toDigits 10 n).length

/-- The power of ten. -/
def tenTo (k : Nat) : Nat := Nat.pow 10 k

/-- A value with the interval of the reals that round to it, over one common
denominator. -/
structure Interval where
  value : Nat
  low : Nat
  high : Nat
  /-- Whether the ends belong to the interval. -/
  closed : Bool
  denominator : Nat

/-- The interval of the double m·2^e. Below a power of two the doubles are
twice as dense, except where they are subnormal. -/
def Interval.of (m : Nat) (e : Int) : Interval :=
  let denser := m = Double.twoTo 52 ∧ e ≠ -1074
  let (value, half) := if denser then (4 * m, 2) else (2 * m, 1)
  let below := 1
  let scale := if denser then 2 else 1
  let closed := m % 2 = 0
  if 0 ≤ e then
    let p := Double.twoTo e.toNat
    ⟨value * p, (value - below) * p, (value + half) * p, closed, 2 * scale⟩
  else
    ⟨value, value - below, value + half, closed, 2 * scale * Double.twoTo (-e).toNat⟩

/-- The grid point `n`·10^`k` as a numerator over `denominator` · 10^`max 0 (-k)`. -/
def scaled (n : Nat) (k : Int) (denominator : Nat) : Nat :=
  if 0 ≤ k then n * tenTo k.toNat * denominator else n * denominator

/-- A number of the interval over the denominator that `scaled` uses. -/
def lifted (n : Nat) (k : Int) : Nat :=
  if 0 ≤ k then n else n * tenTo (-k).toNat

/-- Whether the grid point `n`·10^`k` lies in the interval. -/
def Interval.holds (i : Interval) (k : Int) (n : Nat) : Bool :=
  let point := scaled n k i.denominator
  let low := lifted i.low k
  let high := lifted i.high k
  if i.closed then low ≤ point && point ≤ high else low < point && point < high

/-- The grid point next below or at the value. -/
def Interval.floor (i : Interval) (k : Int) : Nat :=
  if 0 ≤ k then i.value / (tenTo k.toNat * i.denominator)
  else i.value * tenTo (-k).toNat / i.denominator

/-- The point of the grid 10^`k` that lies in the interval, the nearer of two;
of two at the same distance, the even one. -/
def Interval.hit? (i : Interval) (k : Int) : Option Nat :=
  let below := i.floor k
  let above := below + 1
  match i.holds k below, i.holds k above with
  | true, true =>
    let value := lifted i.value k
    let down := value - scaled below k i.denominator
    let up := scaled above k i.denominator - value
    if down < up ∨ (down = up ∧ below % 2 = 0) then some below else some above
  | true, false => some below
  | false, true => some above
  | false, false => none

/-- Tries grids from 10^`k` downwards. -/
def Interval.search (i : Interval) : (tries : Nat) → (k : Int) → Nat × Int
  | 0, k => (i.floor k, k)
  | tries + 1, k =>
    match i.hit? k with
    | some n => (n, k)
    | none => i.search tries (k - 1)

/-- The place of the leading digit of a positive value: 10^`k` is at most the value. -/
def Interval.leading (i : Interval) : Int :=
  if i.denominator ≤ i.value then (width (i.value / i.denominator) : Int) - 1
  else -(width (i.denominator / i.value) : Int)

/-- Drops the trailing zeros of `n`·10^`k`. -/
def trimmed : (tries : Nat) → Nat → Int → Nat × Int
  | 0, n, k => (n, k)
  | tries + 1, n, k => if n ≠ 0 ∧ n % 10 = 0 then trimmed tries (n / 10) (k + 1) else (n, k)

/-- The shortest decimal `n`·10^`k` of the positive double m·2^e, without
trailing zeros. -/
def digits (m : Nat) (e : Int) : Nat × Int :=
  let i := Interval.of m e
  let (n, k) := i.search 20 (i.leading + 1)
  trimmed 20 n k

/-- How a decimal is laid out. -/
structure Layout where
  /-- The least exponent of the leading digit that is written with a point only. -/
  least : Int
  /-- The first exponent of the leading digit that is not. -/
  limit : Int
  /-- The least number of digits of a written exponent. -/
  exponentWidth : Nat

/-- Positional from 10^-4 to below 10^16; exponents have a sign and two digits. -/
def layout : Layout := ⟨-4, 16, 2⟩

/-- The decimal `n`·10^`k`, laid out. -/
def Layout.write (l : Layout) (n : Nat) (k : Int) : String :=
  let ds := Nat.toDigits 10 n
  let exponent := k + ds.length - 1
  if l.least ≤ exponent ∧ exponent < l.limit then
    if 0 ≤ k then String.ofList (ds ++ List.replicate k.toNat '0') ++ ".0"
    else if 0 ≤ exponent then
      String.ofList (ds.take (exponent.toNat + 1) ++ '.' :: ds.drop (exponent.toNat + 1))
    else String.ofList ('0' :: '.' :: List.replicate (-exponent - 1).toNat '0' ++ ds)
  else
    let mantissa := match ds with
      | d :: [] => [d]
      | d :: more => d :: '.' :: more
      | [] => []
    let power := Nat.toDigits 10 exponent.natAbs
    let padded := List.replicate (l.exponentWidth - power.length) '0' ++ power
    let sign := if exponent < 0 then '-' else '+'
    String.ofList (mantissa ++ 'e' :: sign :: padded)

/-- The text of a double. -/
def text (x : Float) : String :=
  match Double.parts? x with
  | none => if x.isNaN then "nan" else if x < 0 then "-inf" else "inf"
  | some (negative, m, e) =>
    let sign := if negative then "-" else ""
    if m = 0 then sign ++ "0.0"
    else
      let (n, k) := digits m e
      sign ++ layout.write n k

end Shortest
end DiagnosticWatch
