/-
# Doubles as exact values

A finite double is a sign, a mantissa and a power of two. Comparing it with an
integer is exact: neither side is rounded.

Key definitions: `Double.parts?`, `Double.compareInt`.
-/

namespace DiagnosticWatch
namespace Double

/-- The power of two. -/
def twoTo (k : Nat) : Nat := Nat.pow 2 k

/-- A finite double as `(negative, m, e)`, of value ±m·2^e; nothing for an
infinity or a NaN. -/
def parts? (x : Float) : Option (Bool × Nat × Int) :=
  let bits : Nat := x.toBits.toNat
  let negative := bits / twoTo 63 = 1
  let exponent : Nat := bits / twoTo 52 % 2048
  let fraction : Nat := bits % twoTo 52
  if exponent = 2047 then none
  else if exponent = 0 then some (negative, fraction, -1074)
  else some (negative, fraction + twoTo 52, (exponent : Int) - 1075)

/-- The double nearest to an integer. -/
def ofInt (i : Int) : Float :=
  if i < 0 then -Float.ofScientific i.natAbs false 0 else Float.ofScientific i.natAbs false 0

/-- How a double compares with an integer; nothing for a NaN. -/
def compareInt (x : Float) (i : Int) : Option Ordering :=
  match parts? x with
  | some (negative, m, e) =>
    let m : Int := if negative then -m else m
    if 0 ≤ e then some (compare (m * twoTo e.toNat) i) else some (compare m (i * twoTo (-e).toNat))
  | none => if x.isNaN then none else if x < 0 then some .lt else some .gt

end Double
end DiagnosticWatch
