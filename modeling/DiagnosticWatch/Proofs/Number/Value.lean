/-
# The values of numbers

A number of a configuration stands for a rational, exactly, or for an infinity; only a NaN
stands for nothing. Numbers compare with integers as their values do. A numeral is never
read as a NaN, however large it is.

Key definitions: `Extended`, `Double.value?`, `Number.value?`.
Key theorems: `Double.compareInt_eq`, `Number.exceeds_iff`, `Number.lessThan_iff`,
`Number.atMost_iff`, `Numeral.value_of_bounded`.
-/
import DiagnosticWatch.Json.Numeral
import DiagnosticWatch.Proofs.Number.Rounding
import Mathlib

namespace DiagnosticWatch

/-- The rationals with an infinity at each end. -/
abbrev Extended := WithBotTop ℚ

/-- A whole number among the rationals and infinities. -/
def Extended.ofInt (i : ℤ) : Extended := ((i : ℚ) : Extended)

@[simp] theorem Extended.ofInt_lt_ofInt {i j : ℤ} : Extended.ofInt i < Extended.ofInt j ↔ i < j :=
  WithBotTop.coe_lt_coe.trans Int.cast_lt

@[simp] theorem Extended.ofInt_le_ofInt {i j : ℤ} : Extended.ofInt i ≤ Extended.ofInt j ↔ i ≤ j :=
  WithBotTop.coe_le_coe.trans Int.cast_le

/-- Rationals compare among the infinities as they do by themselves. -/
theorem compare_coe (q r : ℚ) : compare (q : Extended) (r : Extended) = compare q r := by
  rcases lt_trichotomy q r with h | rfl | h
  · rw [compare_lt_iff_lt.mpr h, compare_lt_iff_lt.mpr (WithBotTop.coe_lt_coe.mpr h)]
  · rw [compare_eq_iff_eq.mpr rfl, compare_eq_iff_eq.mpr rfl]
  · rw [compare_gt_iff_gt.mpr h, compare_gt_iff_gt.mpr (WithBotTop.coe_lt_coe.mpr h)]

/-- Integers compare as the rationals that a positive factor makes of them. -/
theorem compare_scaled_rat {a b : ℤ} {q r c : ℚ} (hc : 0 < c) (hq : q = a * c) (hr : r = b * c) :
    compare q r = compare a b := by
  subst hq hr
  rcases lt_trichotomy a b with h | rfl | h
  · rw [compare_lt_iff_lt.mpr h, compare_lt_iff_lt]
    exact mul_lt_mul_of_pos_right (by exact_mod_cast h) hc
  · rw [compare_eq_iff_eq.mpr rfl, compare_eq_iff_eq.mpr rfl]
  · rw [compare_gt_iff_gt.mpr h, compare_gt_iff_gt]
    exact mul_lt_mul_of_pos_right (by exact_mod_cast h) hc

namespace Double

open Float.Model Float.Model.UnpackedFloat

/-- What a double stands for; nothing for a NaN. -/
def value? (x : Float) : Option Extended :=
  match parts? x with
  | some (negative, m, e) => some (((if negative then -m else m : ℤ) * 2 ^ e : ℚ) : Extended)
  | none => if x.isNaN then none else if x < 0 then some ⊥ else some ⊤

theorem value_isSome {x : Float} (h : x.isNaN = false) : (value? x).isSome = true := by
  unfold value?
  cases parts? x with
  | some parts => rfl
  | none =>
    simp only [h, Bool.false_eq_true, ↓reduceIte]
    split <;> rfl

/-- A double compares with an integer as its value does. -/
theorem compareInt_eq (x : Float) (i : ℤ) :
    compareInt x i = (value? x).map fun v => compare v (Extended.ofInt i) := by
  unfold compareInt value?
  cases parts? x with
  | some parts =>
    obtain ⟨negative, m, e⟩ := parts
    have hpow (k : ℕ) : ((twoTo k : ℤ) : ℚ) = 2 ^ k := by exact_mod_cast rfl
    simp only [Option.map_some, Extended.ofInt, compare_coe]
    generalize (if negative then -(m : ℤ) else m) = a
    split
    · -- a whole number of the double: nothing is scaled
      rename_i he
      refine congrArg some (compare_scaled_rat one_pos ?_ (mul_one _).symm).symm
      rw [mul_one, Int.cast_mul, hpow, ← zpow_natCast, Int.toNat_of_nonneg he]
    · rename_i he
      refine congrArg some (compare_scaled_rat (zpow_pos (by norm_num : (0 : ℚ) < 2) e) rfl ?_).symm
      rw [Int.cast_mul, hpow, ← zpow_natCast, Int.toNat_of_nonneg (by omega), mul_assoc,
        ← zpow_add₀ two_ne_zero, neg_add_cancel, zpow_zero, mul_one]
  | none =>
    simp only
    split_ifs
    · rfl
    · exact congrArg some (compare_lt_iff_lt.mpr (WithBot.bot_lt_coe _)).symm
    · exact congrArg some (compare_gt_iff_gt.mpr (WithBot.coe_lt_coe.mpr (WithTop.coe_lt_top _))).symm

/-! ### Numerals are no NaNs -/

theorem isNaN_roundWithAccuracy (spec : Float.Model.Format) (s : Sign) (m : ℕ) (e : ℤ)
    (accuracy : Accuracy) : (roundWithAccuracy spec s m e accuracy).isNaN = false := by
  unfold roundWithAccuracy
  dsimp only
  split_ifs <;> rfl

theorem isNaN_packComponents (s : Sign) {e : BitVec 11} (he : e ≠ -1#11) (m : BitVec 52) :
    (UnpackedFloat.unpack .binary64 (packComponents .binary64 s e m)).isNaN = false := by
  rw [UnpackedFloat.unpack]
  simp only [unpackExponent_packComponents]
  rw [if_neg he]
  split_ifs <;> rfl

/-- Packing keeps what is a NaN and what is none. -/
theorem isNaN_unpack_pack (y : UnpackedFloat) :
    (UnpackedFloat.unpack .binary64 (UnpackedFloat.pack .binary64 y)).isNaN = y.isNaN := by
  cases y with
  | notANumber => decide
  | infinity s | zero s => cases s <;> decide
  | finite s m e hm =>
    rw [UnpackedFloat.pack]
    simp only
    split_ifs with hbig hfull
    · show _ = false
      cases s <;> decide
    · refine isNaN_packComponents s (fun h => hbig ?_) _
      have hvalue := congrArg BitVec.toNat h
      rw [BitVec.toNat_ofNat] at hvalue
      have hmod : ∀ k, k % 2 ^ 11 = 2047 → 2 ^ 11 ≤ k + 1 := fun k hk => by omega
      exact hmod _ hvalue
    · exact isNaN_packComponents s (by decide) _

theorem isNaN_neg (x : Float) : (-x).isNaN = x.isNaN := by
  have h : (-x).isNaN = (UnpackedFloat.neg x.toModel.unpack).isNaN := isNaN_unpack_pack _
  rw [h]
  show _ = x.toModel.unpack.isNaN
  cases x.toModel.unpack <;> rfl

/-- Whether something is finite and not zero. -/
def isScalar : UnpackedFloat → Bool
  | .finite .. => true
  | _ => false

/-- Scaling up and down makes no NaN. -/
theorem isNaN_scaled {x y : Float} (hx : x.isNaN = false)
    (hy : isScalar y.toModel.unpack = true) : (x * y).isNaN = false ∧ (x / y).isNaN = false := by
  have hmul : (x * y).isNaN =
      (UnpackedFloat.mul .binary64 x.toModel.unpack y.toModel.unpack).isNaN := isNaN_unpack_pack _
  have hdiv : (x / y).isNaN =
      (UnpackedFloat.div .binary64 x.toModel.unpack y.toModel.unpack).isNaN := isNaN_unpack_pack _
  have hx : x.toModel.unpack.isNaN = false := hx
  rw [hmul, hdiv]
  generalize x.toModel.unpack = u at hx
  generalize y.toModel.unpack = v at hy
  cases v with
  | notANumber | infinity s | zero s => cases hy
  | finite s m e hm =>
    cases u with
    | notANumber => cases hx
    | infinity s' | zero s' => exact ⟨rfl, rfl⟩
    | finite s' m' e' hm' =>
      exact ⟨isNaN_roundWithAccuracy _ _ _ _ _, isNaN_roundWithAccuracy _ _ _ _ _⟩

theorem isNaN_ofNat (n : ℕ) : (UnpackedFloat.ofNat .binary64 n).isNaN = false := by
  unfold UnpackedFloat.ofNat UnpackedFloat.ofInt UnpackedFloat.normalize
  split
  · exact isNaN_roundWithAccuracy _ _ _ _ _
  · rfl
  · exact isNaN_roundWithAccuracy _ _ _ _ _

theorem isNaN_toFloat (n : UInt64) : n.toFloat.isNaN = false :=
  (isNaN_unpack_pack (UnpackedFloat.ofUInt64 .binary64 n)).trans (isNaN_ofNat n.toNat)

theorem isScalar_powerOfTen : ∀ e : Fin 23,
    isScalar (Float.exactlyRepresentablePowersOfTen[e]).toModel.unpack = true := by
  decide +kernel

theorem isNaN_unpacked_ofScientific (m : ℕ) (e : ℤ) :
    (UnpackedFloat.ofScientific .binary64 m e).isNaN = false := by
  unfold UnpackedFloat.ofScientific
  split_ifs
  · rfl
  · rfl
  · rfl
  · exact isNaN_roundWithAccuracy _ _ _ _ _
  · exact isNaN_roundWithAccuracy _ _ _ _ _

theorem isNaN_ofScientific (m : ℕ) (s : Bool) (e : ℕ) :
    (Float.ofScientific m s e).isNaN = false := by
  unfold Float.ofScientific
  split
  · rename_i h
    have hpow := isScalar_powerOfTen ⟨e, Nat.lt_succ_of_le h.2⟩
    cases s
    · exact (isNaN_scaled (isNaN_toFloat _) hpow).1
    · exact (isNaN_scaled (isNaN_toFloat _) hpow).2
  · exact (isNaN_unpack_pack (UnpackedFloat.ofScientific .binary64 m _)).trans
      (isNaN_unpacked_ofScientific m _)

end Double

namespace Number

/-- What a number stands for; nothing for a NaN. -/
def value? : Number → Option Extended
  | .truth b => some (Extended.ofInt (if b then 1 else 0))
  | .int i => some (Extended.ofInt i)
  | .float x => Double.value? x

variable {n : Number} {i : ℤ}

theorem exceeds_iff : n.exceeds i = true ↔ ∃ v, n.value? = some v ∧ Extended.ofInt i < v := by
  cases n with
  | truth b | int j => simp [exceeds, value?]
  | float x =>
    rw [exceeds, Double.compareInt_eq, value?]
    cases Double.value? x <;> simp [compare_gt_iff_gt]

theorem lessThan_iff : n.lessThan i = true ↔ ∃ v, n.value? = some v ∧ v < Extended.ofInt i := by
  cases n with
  | truth b | int j => simp [lessThan, value?]
  | float x =>
    rw [lessThan, Double.compareInt_eq, value?]
    cases Double.value? x <;> simp [compare_lt_iff_lt]

theorem atMost_iff : n.atMost i = true ↔ ∃ v, n.value? = some v ∧ v ≤ Extended.ofInt i := by
  cases n with
  | truth b | int j => simp [atMost, value?]
  | float x =>
    rw [atMost, Double.compareInt_eq, value?]
    cases Double.value? x with
    | none => simp
    | some v =>
      rcases lt_trichotomy v (Extended.ofInt i) with h | rfl | h
      · simp [compare_lt_iff_lt.mpr h, h.le]
      · simp
      · simp [compare_gt_iff_gt.mpr h, h.not_ge]

end Number

namespace Numeral

theorem isNaN_toFloat (n : Numeral) : n.toFloat.isNaN = false := by
  have hzero : (0 : Float).isNaN = false := by decide +kernel
  have hinf : (1 / 0 : Float).isNaN = false := by decide +kernel
  unfold toFloat
  dsimp only
  split_ifs <;> simp only [Double.isNaN_neg, Double.isNaN_ofScientific, hzero, hinf]

/-- A numeral stands for something. -/
theorem value_of_bounded {n : Numeral} {m : Number} (h : n.bounded? = some m) :
    m.value?.isSome = true := by
  unfold bounded? at h
  split_ifs at h
  · cases h
    rfl
  · cases h
    exact Double.value_isSome n.isNaN_toFloat

end Numeral
end DiagnosticWatch
