/-
# The order of doubles

Doubles in order of what they stand for have consecutive places, their levels:
the zeros are at 0, the greatest finite ones next to the infinities, and a NaN
has none. In its canonical form a finite double is a sign, a mantissa and a
power of two, and its level is read off them, so that doubles compare as their
levels do.

Key definitions: `Double.Canonical`, `Double.level`.
Key theorems: `Double.compare_eq`, `Double.lt_iff`, `Double.le_iff`, `Double.beq_iff`,
`Double.level_le_top`.
-/
import DiagnosticWatch.Number.Basic
import Mathlib

namespace DiagnosticWatch
namespace Double

open Float.Model Float.Model.UnpackedFloat

/-- The level of an infinity. -/
def topLevel : Nat := 2047 * 2 ^ 52

/-- The place among all doubles in order, with the zeros at 0; nothing for a NaN. -/
def level? : UnpackedFloat → Option Int
  | .notANumber => none
  | .infinity s => some (s.apply topLevel)
  | .zero _ => some 0
  | .finite s m e _ => some (s.apply ((e + 1074) * 2 ^ 52 + m))

/-- The form in which a double is unpacked: a mantissa of 53 bits, or of fewer with the
least exponent. -/
def Canonical : UnpackedFloat → Prop
  | .finite _ m e _ => m < 2 ^ 53 ∧ -1074 ≤ e ∧ e ≤ 971 ∧ (2 ^ 52 ≤ m ∨ e = -1074)
  | _ => True

/-- A mantissa with its implicit bit. -/
theorem toNat_one_append {w : Nat} (m : BitVec w) : (1#1 ++ m).toNat = 2 ^ w + m.toNat := by
  have hor : 1 <<< w ||| m.toNat = 1 <<< w + m.toNat := (Nat.shiftLeft_add_eq_or_of_lt m.isLt 1).symm
  rw [BitVec.toNat_append, BitVec.toNat_one Nat.one_pos, hor, Nat.one_shiftLeft]

theorem exponentBias_eq : Format.binary64.exponentBias = 1023 := rfl

theorem canonical_unpack (b : BitVec Format.binary64.numBits) : Canonical (unpack .binary64 b) := by
  have hm : (unpackMantissa b).toNat < 2 ^ 52 := (unpackMantissa b).isLt
  have he : (unpackExponent b).toNat < 2 ^ 11 := (unpackExponent b).isLt
  rw [UnpackedFloat.unpack]
  split
  · split <;> trivial
  · rename_i hne
    split
    · rename_i hz
      split
      · trivial
      · simp only [Canonical, exponentBias_eq, hz]
        refine ⟨by omega, ?_, ?_, .inr ?_⟩ <;> decide
    · rename_i hz
      simp only [Canonical, exponentBias_eq, toNat_one_append]
      simp only [BitVec.toNat_eq] at hne hz
      have hne : (unpackExponent b).toNat ≠ 2047 := hne
      have hz : (unpackExponent b).toNat ≠ 0 := hz
      refine ⟨by omega, by omega, by omega, .inl (by omega)⟩

theorem compare_neg (a b : Int) : compare (-a) (-b) = (compare a b).swap := by
  rcases lt_trichotomy a b with h | rfl | h
  · rw [compare_lt_iff_lt.mpr h]
    exact compare_gt_iff_gt.mpr (by omega)
  · rw [compare_eq_iff_eq.mpr rfl, compare_eq_iff_eq.mpr rfl, Ordering.swap_eq]
  · rw [compare_gt_iff_gt.mpr h]
    exact compare_lt_iff_lt.mpr (by omega)

/-- Of two mantissas in canonical form the one with the greater exponent stands for more. -/
theorem compare_then_compare {m n : Nat} {e f : Int} (hm : m < 2 ^ 53) (hn : n < 2 ^ 53)
    (he : -1074 ≤ e) (hf : -1074 ≤ f) (hm' : 2 ^ 52 ≤ m ∨ e = -1074)
    (hn' : 2 ^ 52 ≤ n ∨ f = -1074) :
    (compare e f).then (compare m n) =
      compare ((e + 1074) * 2 ^ 52 + (m : Int)) ((f + 1074) * 2 ^ 52 + n) := by
  rcases lt_trichotomy e f with h | rfl | h
  · have hlt : (e + 1074) * 2 ^ 52 + (m : Int) < (f + 1074) * 2 ^ 52 + n := by omega
    rw [show compare e f = .lt from compare_lt_iff_lt.mpr h, compare_lt_iff_lt.mpr hlt]
    rfl
  · rw [show compare e e = .eq from compare_eq_iff_eq.mpr rfl, Ordering.eq_then]
    rcases lt_trichotomy m n with h | rfl | h
    · rw [compare_lt_iff_lt.mpr h, compare_lt_iff_lt.mpr (by omega)]
    · rw [compare_eq_iff_eq.mpr rfl, compare_eq_iff_eq.mpr rfl]
    · rw [compare_gt_iff_gt.mpr h, compare_gt_iff_gt.mpr (by omega)]
  · have hgt : (f + 1074) * 2 ^ 52 + (n : Int) < (e + 1074) * 2 ^ 52 + m := by omega
    rw [show compare e f = .gt from compare_gt_iff_gt.mpr h, compare_gt_iff_gt.mpr hgt]
    rfl

/-- Doubles compare as their levels do. -/
theorem compare_eq {x y : UnpackedFloat} (hx : Canonical x) (hy : Canonical y) :
    x.compare y = (level? x).bind fun a => (level? y).map fun b => compare a b := by
  have htop : (topLevel : Int) = 2047 * 2 ^ 52 := rfl
  have hlt : ∀ {a b : Int}, a < b → some Ordering.lt = some (compare a b) := fun h =>
    congrArg some (compare_lt_iff_lt.mpr h).symm
  have hgt : ∀ {a b : Int}, b < a → some Ordering.gt = some (compare a b) := fun h =>
    congrArg some (compare_gt_iff_gt.mpr h).symm
  cases x with
  | notANumber => rfl
  | infinity s =>
    cases y with
    | notANumber => cases s <;> rfl
    | infinity s' | zero s' => cases s <;> cases s' <;> rfl
    | finite s' n f hn =>
      obtain ⟨hn1, hf1, hf2, -⟩ := hy
      cases s with
      | negative => cases s' <;> exact hlt (by simp only [Sign.apply]; omega)
      | positive => cases s' <;> exact hgt (by simp only [Sign.apply]; omega)
  | zero s =>
    cases y with
    | notANumber => cases s <;> rfl
    | infinity s' | zero s' => cases s <;> cases s' <;> rfl
    | finite s' n f hn =>
      obtain ⟨hn1, hf1, hf2, -⟩ := hy
      cases s' with
      | negative => exact hgt (by simp only [Sign.apply]; omega)
      | positive => exact hlt (by simp only [Sign.apply]; omega)
  | finite s m e hm =>
    obtain ⟨hm1, he1, he2, hm2⟩ := hx
    cases y with
    | notANumber => cases s <;> rfl
    | infinity s' =>
      cases s' with
      | negative => cases s <;> exact hgt (by simp only [Sign.apply]; omega)
      | positive => cases s <;> exact hlt (by simp only [Sign.apply]; omega)
    | zero s' =>
      cases s with
      | negative => exact hlt (by simp only [Sign.apply]; omega)
      | positive => exact hgt (by simp only [Sign.apply]; omega)
    | finite s' n f hn =>
      obtain ⟨hn1, hf1, hf2, hn2⟩ := hy
      have heq := compare_then_compare hm1 hn1 he1 hf1 hm2 hn2
      cases s <;> cases s'
      · exact congrArg some ((congrArg Ordering.swap heq).trans (compare_neg _ _).symm)
      · exact hlt (by simp only [Sign.apply]; omega)
      · exact hgt (by simp only [Sign.apply]; omega)
      · exact congrArg some heq

/-! ### Doubles -/

/-- The level of a double. -/
def level (x : Float) : Option Int := level? x.toModel.unpack

theorem canonical (x : Float) : Canonical x.toModel.unpack := canonical_unpack _

theorem lt_iff {x y : Float} : x < y ↔ ∃ a b, level x = some a ∧ level y = some b ∧ a < b := by
  have h : x < y ↔ x.toModel.unpack.compare y.toModel.unpack = some .lt := by
    show decide (x.toModel.unpack.lt y.toModel.unpack = true) = true ↔ _
    rw [decide_eq_true_iff, UnpackedFloat.lt, beq_iff_eq]
  rw [h, compare_eq (canonical x) (canonical y), ← level, ← level]
  cases level x <;> cases level y <;> simp [compare_lt_iff_lt]

theorem le_iff {x y : Float} : x ≤ y ↔ ∃ a b, level x = some a ∧ level y = some b ∧ a ≤ b := by
  have h : x ≤ y ↔ (x.toModel.unpack.compare y.toModel.unpack).any (·.isLE) = true := by
    show decide (x.toModel.unpack.le y.toModel.unpack = true) = true ↔ _
    rw [decide_eq_true_iff, UnpackedFloat.le]
  rw [h, compare_eq (canonical x) (canonical y), ← level, ← level]
  cases level x <;> cases level y <;> simp [Ordering.isLE_iff_ne_gt, compare_gt_iff_gt]

theorem beq_iff {x y : Float} : (x == y) = true ↔ ∃ a, level x = some a ∧ level y = some a := by
  have h : (x == y) = true ↔ x.toModel.unpack.compare y.toModel.unpack = some .eq := by
    show (x.toModel.unpack.compare y.toModel.unpack == some .eq) = true ↔ _
    rw [beq_iff_eq]
  rw [h, compare_eq (canonical x) (canonical y), ← level, ← level]
  cases level x with
  | none => simp
  | some a =>
    cases level y with
    | none => simp
    | some b => simp [@eq_comm _ b]

/-- Finite doubles lie between the infinities. -/
theorem level_bounds {x : UnpackedFloat} {a : Int} (hx : Canonical x) (hf : x.isFinite = true)
    (ha : level? x = some a) : -(topLevel : Int) < a ∧ a < topLevel := by
  have htop : (topLevel : Int) = 2047 * 2 ^ 52 := rfl
  cases x with
  | notANumber | infinity s => cases hf
  | zero s =>
    obtain rfl : 0 = a := Option.some_inj.mp ha
    omega
  | finite s m e hm =>
    obtain ⟨hm1, he1, he2, -⟩ := hx
    obtain rfl : s.apply ((e + 1074) * 2 ^ 52 + m) = a := Option.some_inj.mp ha
    cases s <;> simp only [Sign.apply] <;> omega

/-- A double is finite, an infinity or a NaN. -/
theorem kind_cases (x : Float) : x.isFinite = true ∨ x.toModel.unpack = .infinity .negative ∨
    x.toModel.unpack = .infinity .positive ∨ x.toModel.unpack = .notANumber := by
  show x.toModel.unpack.isFinite = true ∨ _
  generalize x.toModel.unpack = y
  cases y with
  | notANumber => exact .inr (.inr (.inr rfl))
  | infinity s => cases s with
    | negative => exact .inr (.inl rfl)
    | positive => exact .inr (.inr (.inl rfl))
  | zero s | finite s m e hm => exact .inl rfl

theorem level_of_infinity {x : Float} {s : Sign} (h : x.toModel.unpack = .infinity s) :
    level x = some (s.apply topLevel) := by
  rw [level, h]
  rfl

theorem level_of_nan {x : Float} (h : x.toModel.unpack = .notANumber) : level x = none := by
  rw [level, h]
  rfl

/-- Every level lies between those of the infinities. -/
theorem level_le_top {x : Float} {a : Int} (ha : level x = some a) :
    -(topLevel : Int) ≤ a ∧ a ≤ topLevel := by
  rcases kind_cases x with hx | hx | hx | hx
  · have := level_bounds (canonical x) hx ha
    omega
  · rw [level_of_infinity hx] at ha
    obtain rfl : -(topLevel : Int) = a := Option.some_inj.mp ha
    omega
  · rw [level_of_infinity hx] at ha
    obtain rfl : (topLevel : Int) = a := Option.some_inj.mp ha
    omega
  · rw [level_of_nan hx] at ha
    cases ha

/-- Only an infinity is at the level of an infinity. -/
theorem infinity_of_level {x : Float} {s : Sign} (h : level x = some (s.apply topLevel)) :
    x.toModel.unpack = .infinity s := by
  have htop : (0 : Int) < topLevel := by decide
  rcases kind_cases x with hx | hx | hx | hx
  · have := level_bounds (canonical x) hx h
    cases s <;> simp only [Sign.apply] at this <;> omega
  · rw [level_of_infinity hx, Option.some_inj] at h
    cases s with
    | negative => exact hx
    | positive =>
      simp only [Sign.apply] at h
      omega
  · rw [level_of_infinity hx, Option.some_inj] at h
    cases s with
    | negative =>
      simp only [Sign.apply] at h
      omega
    | positive => exact hx
  · exact nomatch (level_of_nan hx).symm.trans h

end Double
end DiagnosticWatch
