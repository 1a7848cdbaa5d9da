/-
# Numbers of a configuration

A number is a truth value, an integer or a double, and stays what it was
written as. A truth value counts as 1 or 0. Comparisons are exact.

Key definitions: `Number`, `Number.compareFloat`, `Number.exceeds`,
`Number.atMost`, `Number.toFloat?`, `Number.text`.
-/
import DiagnosticWatch.Number.Shortest

namespace DiagnosticWatch

/-- A number as it was written. -/
inductive Number where
  | truth (b : Bool)
  | int (i : Int)
  | float (x : Float)
deriving Repr, Inhabited

namespace Number

/-- The double nearest to a number; nothing for an integer that is too large for
one. -/
def toFloat? : Number → Option Float
  | .truth b => some (if b then 1 else 0)
  | .int i => if (Double.ofInt i).isInf then none else some (Double.ofInt i)
  | .float x => some x

/-- How a double compares with a number; nothing if either is a NaN. -/
def compareFloat (x : Float) : Number → Option Ordering
  | .truth b => Double.compareInt x (if b then 1 else 0)
  | .int i => Double.compareInt x i
  | .float y => if x < y then some .lt else if x == y then some .eq
    else if y < x then some .gt else none

/-- Whether a double is less than a number. -/
def above (n : Number) (x : Float) : Bool :=
  n.compareFloat x = some .lt

/-- Whether a double is greater than a number. -/
def below (n : Number) (x : Float) : Bool :=
  n.compareFloat x = some .gt

/-- Whether a number is greater than an integer. -/
def exceeds (n : Number) (i : Int) : Bool :=
  match n with
  | .truth b => i < (if b then 1 else 0)
  | .int j => i < j
  | .float x => Double.compareInt x i = some .gt

/-- Whether a number is an integer or less. A NaN is not. -/
def atMost (n : Number) (i : Int) : Bool :=
  match n with
  | .truth b => (if b then 1 else 0) ≤ i
  | .int j => j ≤ i
  | .float x =>
    match Double.compareInt x i with
    | some .lt | some .eq => true
    | _ => false

/-- Whether a number is less than an integer. -/
def lessThan (n : Number) (i : Int) : Bool :=
  match n with
  | .truth b => (if b then 1 else 0) < i
  | .int j => j < i
  | .float x => Double.compareInt x i = some .lt

/-- Whether a number is zero. -/
def isZero : Number → Bool
  | .truth b => !b
  | .int i => i = 0
  | .float x => x == 0

/-- The text of a number. -/
def text : Number → String
  | .truth b => if b then "True" else "False"
  | .int i => toString i
  | .float x => Shortest.text x

end Number
end DiagnosticWatch
