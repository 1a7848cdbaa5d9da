/-
# Elapsed time

Time is measured by subtracting doubles, with rounding. Still, the later
something started the less time has passed since: a number that is above the
time since the earlier start is above the time since the later one, and one
that is below the time since the later is below the time since the earlier.
This holds of all doubles, infinities and NaNs included, and of whatever kind
the number is.

Key theorems: `Double.compareInt_mono`, `Double.level_sub_anti`,
`Number.above_sub_of_le`, `Number.below_sub_of_le`, `Number.not_below_sub_self`.
-/
import DiagnosticWatch.Proofs.Number.Rounding

namespace DiagnosticWatch
namespace Double

open Float.Model Float.Model.UnpackedFloat

/-! ### Comparing with integers -/

theorem toNat_unpackExponent (b : BitVec 64) :
    (@unpackExponent .binary64 b).toNat = b.toNat / 2 ^ 52 % 2 ^ 11 := by
  simp only [unpackExponent, BitVec.toNat_cast, BitVec.extractLsb_toNat, Nat.shiftRight_eq_div_pow]

theorem toNat_unpackMantissa (b : BitVec 64) :
    (@unpackMantissa .binary64 b).toNat = b.toNat % 2 ^ 52 := by
  simp only [unpackMantissa, BitVec.toNat_cast, BitVec.extractLsb_toNat, Nat.shiftRight_zero]

theorem toNat_unpackSign (b : BitVec 64) : (@unpackSign .binary64 b).toNat = b.toNat / 2 ^ 63 := by
  simp only [unpackSign, BitVec.toNat_cast, BitVec.extractLsb_toNat, Nat.shiftRight_eq_div_pow]
  have := b.isLt
  show b.toNat / 2 ^ 63 % 2 ^ 1 = _
  omega

/-- A double as its exact parts, read off its bits. -/
theorem parts_eq (x : Float) : parts? x = match x.toModel.unpack with
    | .finite s m e _ => some (s == .negative, m, e)
    | .zero s => some (s == .negative, 0, -1074)
    | _ => none := by
  obtain ⟨b, hb⟩ : ∃ b : BitVec 64, b = x.toModel.toBits.toBitVec := ⟨_, rfl⟩
  have hE := toNat_unpackExponent b
  have hM := toNat_unpackMantissa b
  have hS := toNat_unpackSign b
  have hbits : x.toBits.toNat = b.toNat := by rw [hb]; rfl
  have hunpack : x.toModel.unpack = UnpackedFloat.unpack .binary64 b := by rw [hb]; rfl
  have hneg : (Sign.ofBitVec (@unpackSign .binary64 b) == .negative) =
      decide (b.toNat / twoTo 63 = 1) := by
    have hb : (@unpackSign .binary64 b).toNat = b.toNat / twoTo 63 := hS
    rw [← hb]
    generalize @unpackSign .binary64 b = v
    revert v
    decide
  have hE' : b.toNat / twoTo 52 % 2048 = (@unpackExponent .binary64 b).toNat := hE.symm
  have hM' : b.toNat % twoTo 52 = (@unpackMantissa .binary64 b).toNat := hM.symm
  rw [hunpack, parts?, hbits]
  simp only [hE', hM', ← hneg]
  rw [UnpackedFloat.unpack]
  have hinf : (@unpackExponent .binary64 b = -1#11) ↔ (@unpackExponent .binary64 b).toNat = 2047 :=
    BitVec.toNat_eq
  have hzero : (@unpackExponent .binary64 b = 0#11) ↔ (@unpackExponent .binary64 b).toNat = 0 :=
    BitVec.toNat_eq
  have hmz : (@unpackMantissa .binary64 b = 0#52) ↔ (@unpackMantissa .binary64 b).toNat = 0 :=
    BitVec.toNat_eq
  simp only [hinf, hzero, hmz]
  split_ifs with h1 h2 h3 h4
  · rfl
  · rfl
  · simp only [h4]
  · simp only [exponentBias_eq, h3]
    rfl
  · simp only [exponentBias_eq, toNat_one_append]
    rw [Nat.add_comm]
    rfl


theorem compare_mul_right {a b c : Int} (hc : 0 < c) : compare (a * c) (b * c) = compare a b := by
  rcases lt_trichotomy a b with h | rfl | h
  · rw [compare_lt_iff_lt.mpr h, compare_lt_iff_lt.mpr (Int.mul_lt_mul_of_pos_right h hc)]
  · rw [compare_eq_iff_eq.mpr rfl, compare_eq_iff_eq.mpr rfl]
  · rw [compare_gt_iff_gt.mpr h, compare_gt_iff_gt.mpr (Int.mul_lt_mul_of_pos_right h hc)]

/-- How an integer compares with a mantissa and an exponent. -/
theorem compare_scaled (m i e : Int) (he : -1074 ≤ e) :
    (if 0 ≤ e then some (compare (m * twoTo e.toNat) i)
      else some (compare m (i * twoTo (-e).toNat))) =
      some (compare (m * 2 ^ (e + 1074).toNat) (i * 2 ^ 1074)) := by
  have hpow (k : Nat) : ((twoTo k : Nat) : Int) = 2 ^ k := by simp [twoTo]
  split_ifs with h
  · have hadd : (e + 1074).toNat = e.toNat + 1074 := by omega
    rw [hpow, hadd, pow_add, ← mul_assoc, compare_mul_right (Int.pow_pos (by decide))]
  · have hadd : 1074 = (-e).toNat + (e + 1074).toNat := by omega
    have hi : i * 2 ^ 1074 = i * 2 ^ (-e).toNat * 2 ^ (e + 1074).toNat := by
      rw [mul_assoc, ← pow_add, ← hadd]
    rw [hpow, hi, compare_mul_right (Int.pow_pos (by decide))]

/-- How a double compares with an integer. -/
theorem compareInt_of_finite {x : Float} (hf : x.isFinite = true) (i : Int) :
    compareInt x i = some (compare (quanta x.toModel.unpack) (i * 2 ^ 1074)) := by
  have hc := canonical x
  have hf : x.toModel.unpack.isFinite = true := hf
  rw [compareInt, parts_eq]
  generalize x.toModel.unpack = y at hc hf
  cases y with
  | notANumber | infinity s => cases hf
  | zero s =>
    have h := compare_scaled 0 i (-1074) (by decide)
    rw [zero_mul] at h
    cases s <;> exact h
  | finite s m e hm =>
    have h := compare_scaled (s.apply m) i e hc.2.1
    rw [quanta, Nat.cast_mul, apply_mul, Nat.cast_pow]
    cases s <;> exact h

theorem compareInt_of_infinite {x : Float} {s : Sign} (h : x.toModel.unpack = .infinity s)
    (i : Int) :
    compareInt x i = some (if s == .negative then .lt else .gt) := by
  have hlevel : level x = some (s.apply topLevel) := by rw [level, h]; rfl
  have hzero : level 0 = some 0 := by decide
  have hlt : x < 0 ↔ s = .negative := by
    rw [lt_iff, hlevel, hzero]
    cases s <;> simp [Sign.apply, topLevel]
  have hnan : x.isNaN = false := by show x.toModel.unpack.isNaN = false; rw [h]; rfl
  have hno : ¬ x.isNaN = true := by rw [hnan]; exact Bool.false_ne_true
  rw [compareInt, parts_eq, h]
  cases s with
  | negative => exact (if_neg hno).trans (if_pos (hlt.mpr rfl))
  | positive => exact (if_neg hno).trans (if_neg fun h => Sign.noConfusion (hlt.mp h))

theorem compareInt_of_nan {x : Float} (h : x.toModel.unpack = .notANumber) (i : Int) :
    compareInt x i = none := by
  have hnan : x.isNaN = true := by show x.toModel.unpack.isNaN = true; rw [h]; rfl
  rw [compareInt, parts_eq, h]
  simp only [hnan, ↓reduceIte]

/-- A double of a lower level compares no greater with an integer. -/
theorem compareInt_mono {x y : Float} {a b : Int} (i : Int) (ha : level x = some a)
    (hb : level y = some b) (hab : a ≤ b) : ∃ o o', compareInt x i = some o ∧
      compareInt y i = some o' ∧ (o' = .lt → o = .lt) ∧ (o = .gt → o' = .gt) := by
  rcases kind_cases x with hx | hx | hx | hx
  · rcases kind_cases y with hy | hy | hy | hy
    · have hle := quanta_le_of_level_le (canonical x) (canonical y) hx hy ha hb hab
      refine ⟨_, _, compareInt_of_finite hx i, compareInt_of_finite hy i, fun h => ?_, fun h => ?_⟩
      · rw [compare_lt_iff_lt] at h ⊢
        omega
      · rw [compare_gt_iff_gt] at h ⊢
        omega
    · have hlow := level_bounds (canonical x) hx ha
      rw [level_of_infinity hy] at hb
      obtain rfl : -(topLevel : Int) = b := Option.some_inj.mp hb
      omega
    · exact ⟨_, _, compareInt_of_finite hx i, compareInt_of_infinite hy i, nofun, fun _ => rfl⟩
    · cases (level_of_nan hy).symm.trans hb
  · obtain ⟨o', ho'⟩ : ∃ o', compareInt y i = some o' := by
      rcases kind_cases y with hy | hy | hy | hy
      · exact ⟨_, compareInt_of_finite hy i⟩
      · exact ⟨_, compareInt_of_infinite hy i⟩
      · exact ⟨_, compareInt_of_infinite hy i⟩
      · cases (level_of_nan hy).symm.trans hb
    exact ⟨_, o', compareInt_of_infinite hx i, ho', fun _ => rfl, nofun⟩
  · have htop : (topLevel : Int) = a := Option.some_inj.mp ((level_of_infinity hx).symm.trans ha)
    have hhigh := (level_le_top hb).2
    have hy : y.toModel.unpack = .infinity .positive :=
      infinity_of_level (hb.trans (congrArg some (show b = topLevel by omega)))
    exact ⟨_, _, compareInt_of_infinite hx i, compareInt_of_infinite hy i, nofun, fun _ => rfl⟩
  · cases (level_of_nan hx).symm.trans ha

/-- A double below zero compares so. -/
theorem compareInt_of_neg {x : Float} (h : x < 0) : compareInt x 0 = some .lt := by
  obtain ⟨a, b, ha, hb, hab⟩ := lt_iff.mp h
  obtain rfl : 0 = b := Option.some_inj.mp ((show level 0 = some 0 by decide).symm.trans hb)
  rcases kind_cases x with hx | hx | hx | hx
  · have hq : quanta x.toModel.unpack < 0 := by
      by_contra hq
      have hmono := nearestLevel_mono (Int.not_lt.mp hq)
      rw [nearestLevel_zero] at hmono
      have hlevel : level x = some (nearestLevel (quanta x.toModel.unpack)) :=
        level_eq (canonical x) hx
      rw [ha, Option.some_inj] at hlevel
      omega
    rw [compareInt_of_finite hx, Int.zero_mul, compare_lt_iff_lt.mpr hq]
  · exact compareInt_of_infinite hx 0
  · rw [level_of_infinity hx, Option.some_inj] at ha
    simp only [Sign.apply, topLevel] at ha
    omega
  · cases (level_of_nan hx).symm.trans ha

/-! ### Differences -/

theorem level_sub_of_finite {x y : Float} (hx : x.isFinite = true) (hy : y.isFinite = true) :
    level (x - y) = some (nearestLevel (quanta x.toModel.unpack - quanta y.toModel.unpack)) :=
  level_sub (canonical_unpack _) (canonical_unpack _) hx hy

theorem level_sub_eq {x y : Float} {u : UnpackedFloat}
    (h : UnpackedFloat.sub .binary64 x.toModel.unpack y.toModel.unpack = u) (hu : Canonical u) :
    level (x - y) = level? u := by
  rw [← level_pack hu, ← h]
  rfl

theorem level_sub_of_nan_left {x y : Float} (h : x.toModel.unpack = .notANumber) :
    level (x - y) = none := by
  have hs : UnpackedFloat.sub .binary64 x.toModel.unpack y.toModel.unpack = .notANumber := by
    rw [h]
    cases y.toModel.unpack <;> rfl
  exact level_sub_eq hs trivial

theorem level_sub_of_nan_right {x y : Float} (h : y.toModel.unpack = .notANumber) :
    level (x - y) = none := by
  have hs : UnpackedFloat.sub .binary64 x.toModel.unpack y.toModel.unpack = .notANumber := by
    rw [h]
    cases x.toModel.unpack <;> rfl
  exact level_sub_eq hs trivial

/-- A difference with one infinity is infinite. -/
theorem level_sub_of_infinite_left {x y : Float} {s : Sign} (hx : x.toModel.unpack = .infinity s)
    (hy : y.isFinite = true) : level (x - y) = some (s.apply topLevel) := by
  have hs : UnpackedFloat.sub .binary64 x.toModel.unpack y.toModel.unpack = .infinity s := by
    have hy : y.toModel.unpack.isFinite = true := hy
    rw [hx]
    generalize y.toModel.unpack = y at hy
    cases y with
    | notANumber | infinity s' => cases hy
    | zero s' | finite s' m e hm => rfl
  exact level_sub_eq hs trivial

theorem level_sub_of_infinite_right {x y : Float} {s : Sign} (hx : x.isFinite = true)
    (hy : y.toModel.unpack = .infinity s) : level (x - y) = some ((-s).apply topLevel) := by
  have hs : UnpackedFloat.sub .binary64 x.toModel.unpack y.toModel.unpack = .infinity (-s) := by
    have hx : x.toModel.unpack.isFinite = true := hx
    rw [hy]
    generalize x.toModel.unpack = x at hx
    cases x with
    | notANumber | infinity s' => cases hx
    | zero s' | finite s' m e hm => rfl
  exact level_sub_eq hs trivial

theorem level_sub_of_infinities {x y : Float} {s s' : Sign} (hx : x.toModel.unpack = .infinity s)
    (hy : y.toModel.unpack = .infinity s') :
    level (x - y) = if s == -s' then some (s.apply topLevel) else none := by
  have hs : UnpackedFloat.sub .binary64 x.toModel.unpack y.toModel.unpack =
      if s == -s' then .infinity s else .notANumber := by
    rw [hx, hy, UnpackedFloat.sub]
  rw [level_sub_eq hs (by split <;> trivial)]
  split <;> rfl

/-- The time since is endless where the end is, unless it is nothing. -/
theorem level_sub_eq_of_left {x z : Float} {s : Sign} {l : Int}
    (hz : z.toModel.unpack = .infinity s) (hl : level (z - x) = some l) : l = s.apply topLevel := by
  rcases kind_cases x with hx | hx | hx | hx
  · exact (Option.some_inj.mp ((level_sub_of_infinite_left hz hx).symm.trans hl)).symm
  · rw [level_sub_of_infinities hz hx] at hl
    split at hl <;> cases hl
    rfl
  · rw [level_sub_of_infinities hz hx] at hl
    split at hl <;> cases hl
    rfl
  · cases (level_sub_of_nan_right hx).symm.trans hl

/-- The later the start, the lower the level of the time since. -/
theorem level_sub_anti {x y z : Float} {l l' : Int} (h : x ≤ y) (hl : level (z - x) = some l)
    (hl' : level (z - y) = some l') : l' ≤ l := by
  obtain ⟨a, b, ha, hb, hab⟩ := le_iff.mp h
  have hlow := level_le_top hl
  have hhigh := level_le_top hl'
  rcases kind_cases z with hz | hz | hz | hz
  · rcases kind_cases x with hx | hx | hx | hx
    · rcases kind_cases y with hy | hy | hy | hy
      · have := quanta_le_of_level_le (canonical x) (canonical y) hx hy ha hb hab
        rw [level_sub_of_finite hz hx, Option.some_inj] at hl
        rw [level_sub_of_finite hz hy, Option.some_inj] at hl'
        rw [← hl, ← hl']
        exact nearestLevel_mono (by omega)
      · have hfinite := level_bounds (canonical x) hx ha
        rw [level_of_infinity hy, Option.some_inj] at hb
        simp only [Sign.apply] at hb
        omega
      · rw [level_sub_of_infinite_right hz hy, Option.some_inj] at hl'
        exact hl' ▸ hlow.1
      · cases (level_of_nan hy).symm.trans hb
    · rw [level_sub_of_infinite_right hz hx, Option.some_inj] at hl
      exact hl ▸ hhigh.2
    · have htop : (topLevel : Int) = a := Option.some_inj.mp ((level_of_infinity hx).symm.trans ha)
      have hy : y.toModel.unpack = .infinity .positive := infinity_of_level (hb.trans
        (congrArg some (show b = topLevel by have := (level_le_top hb).2; omega)))
      rw [level_sub_of_infinite_right hz hy, Option.some_inj] at hl'
      exact hl' ▸ hlow.1
    · cases (level_of_nan hx).symm.trans ha
  · rw [level_sub_eq_of_left hz hl']
    exact hlow.1
  · rw [level_sub_eq_of_left hz hl]
    exact hhigh.2
  · cases (level_sub_of_nan_left hz).symm.trans hl

/-- There is a time since, unless both ends are the same infinity. -/
theorem exists_level_sub {x z : Float} {a c : Int} (ha : level x = some a) (hc : level z = some c)
    (h : ∀ s, z.toModel.unpack = .infinity s → x.toModel.unpack ≠ .infinity s) :
    ∃ l, level (z - x) = some l := by
  rcases kind_cases z with hz | hz | hz | hz
  · rcases kind_cases x with hx | hx | hx | hx
    · exact ⟨_, level_sub_of_finite hz hx⟩
    · exact ⟨_, level_sub_of_infinite_right hz hx⟩
    · exact ⟨_, level_sub_of_infinite_right hz hx⟩
    · cases (level_of_nan hx).symm.trans ha
  · rcases kind_cases x with hx | hx | hx | hx
    · exact ⟨_, level_sub_of_infinite_left hz hx⟩
    · exact absurd hx (h _ hz)
    · exact ⟨_, level_sub_of_infinities hz hx⟩
    · cases (level_of_nan hx).symm.trans ha
  · rcases kind_cases x with hx | hx | hx | hx
    · exact ⟨_, level_sub_of_infinite_left hz hx⟩
    · exact ⟨_, level_sub_of_infinities hz hx⟩
    · exact absurd hx (h _ hz)
    · cases (level_of_nan hx).symm.trans ha
  · cases (level_of_nan hz).symm.trans hc

/-- The end of a time that there is has a level. -/
theorem exists_level_of_sub {x z : Float} {l : Int} (hl : level (z - x) = some l) :
    ∃ c, level z = some c := by
  rcases kind_cases z with hz | hz | hz | hz
  · exact ⟨_, level_eq (canonical z) hz⟩
  · exact ⟨_, level_of_infinity hz⟩
  · exact ⟨_, level_of_infinity hz⟩
  · cases (level_sub_of_nan_left hz).symm.trans hl

/-- Nothing is left between an infinity and itself. -/
theorem level_sub_of_same {x z : Float} {s : Sign} (hx : x.toModel.unpack = .infinity s)
    (hz : z.toModel.unpack = .infinity s) : level (z - x) = none := by
  rw [level_sub_of_infinities hz hx]
  cases s <;> rfl

/-- A time that is not endless is less where it starts later. -/
theorem level_sub_of_later {x y z : Float} {l : Int} (h : x ≤ y) (hl : level (z - x) = some l)
    (hlt : l < topLevel) : ∃ l', level (z - y) = some l' ∧ l' ≤ l := by
  obtain ⟨a, b, ha, hb, hab⟩ := le_iff.mp h
  obtain ⟨c, hc⟩ := exists_level_of_sub hl
  obtain ⟨l', hl'⟩ := exists_level_sub hb hc fun s hz hy => by
    cases s with
    | negative =>
      have hx : x.toModel.unpack = .infinity .negative := by
        rw [level_of_infinity hy, Option.some_inj] at hb
        have hlow := (level_le_top ha).1
        simp only [Sign.apply] at hb
        exact infinity_of_level (ha.trans (congrArg some (show a = -(topLevel : Int) by omega)))
      cases (level_sub_of_same hx hz).symm.trans hl
    | positive =>
      have htop := level_sub_eq_of_left hz hl
      simp only [Sign.apply] at htop
      omega
  exact ⟨l', hl', level_sub_anti h hl hl'⟩

/-- A time that was there at all is more where it starts earlier. -/
theorem level_sub_of_earlier {x y z : Float} {l' : Int} (h : x ≤ y)
    (hl' : level (z - y) = some l') (hlt : -(topLevel : Int) < l') :
    ∃ l, level (z - x) = some l ∧ l' ≤ l := by
  obtain ⟨a, b, ha, hb, hab⟩ := le_iff.mp h
  obtain ⟨c, hc⟩ := exists_level_of_sub hl'
  obtain ⟨l, hl⟩ := exists_level_sub ha hc fun s hz hx => by
    cases s with
    | negative =>
      have hlow := level_sub_eq_of_left hz hl'
      simp only [Sign.apply] at hlow
      omega
    | positive =>
      have hy : y.toModel.unpack = .infinity .positive := by
        rw [level_of_infinity hx, Option.some_inj] at ha
        have hhigh := (level_le_top hb).2
        simp only [Sign.apply] at ha
        exact infinity_of_level (hb.trans (congrArg some (show b = (topLevel : Int) by omega)))
      cases (level_sub_of_same hy hz).symm.trans hl'
  exact ⟨l, hl, level_sub_anti h hl hl'⟩

/-- What lies between a double and itself is nothing. -/
theorem level_sub_self {x : Float} {l : Int} (hl : level (x - x) = some l) : l = 0 := by
  rcases kind_cases x with hx | hx | hx | hx
  · rw [level_sub_of_finite hx hx, Int.sub_self, nearestLevel_zero] at hl
    exact (Option.some_inj.mp hl).symm
  · cases (level_sub_of_same hx hx).symm.trans hl
  · cases (level_sub_of_same hx hx).symm.trans hl
  · cases (level_sub_of_nan_left hx).symm.trans hl

end Double

namespace Number

open Double

theorem above_float_iff (x y : Float) : (Number.float y).above x = true ↔ x < y := by
  simp only [above, compareFloat]
  split_ifs with h1 h2 h3 <;> simp [h1]

theorem below_float_iff (x y : Float) : (Number.float y).below x = true ↔ y < x := by
  simp only [below, compareFloat]
  split_ifs with h1 h2 h3
  · have hnot : ¬ y < x := fun h => by
      obtain ⟨a, b, ha, hb, hab⟩ := lt_iff.mp h1
      obtain ⟨b', a', hb', ha', hba⟩ := lt_iff.mp h
      cases ha.symm.trans ha'
      cases hb.symm.trans hb'
      omega
    simp [hnot]
  · have hnot : ¬ y < x := fun h => by
      obtain ⟨a, ha, hb⟩ := beq_iff.mp h2
      obtain ⟨b', a', hb', ha', hba⟩ := lt_iff.mp h
      cases ha.symm.trans ha'
      cases hb.symm.trans hb'
      omega
    simp [hnot]
  · simp [h3]
  · simp [h3]

/-- A number that is above a double is above any double of a lower level. -/
theorem above_of_level_le {n : Number} {x y : Float} {a b : Int} (ha : level x = some a)
    (hb : level y = some b) (hab : a ≤ b) (h : n.above y = true) : n.above x = true := by
  have hint {i : Int} (h : decide (compareInt y i = some .lt) = true) :
      decide (compareInt x i = some .lt) = true := by
    obtain ⟨o, o', ho, ho', hlt, -⟩ := compareInt_mono i ha hb hab
    rw [ho', decide_eq_true_iff, Option.some_inj] at h
    rw [ho, hlt h, decide_eq_true_iff]
  cases n with
  | truth t => exact hint h
  | int i => exact hint h
  | float z =>
    rw [above_float_iff, lt_iff] at h ⊢
    obtain ⟨b', c, hb', hc, hlt⟩ := h
    rw [hb, Option.some_inj] at hb'
    exact ⟨a, c, ha, hc, by omega⟩

/-- A number that is below a double is below any double of a higher level. -/
theorem below_of_level_le {n : Number} {x y : Float} {a b : Int} (ha : level x = some a)
    (hb : level y = some b) (hab : a ≤ b) (h : n.below x = true) : n.below y = true := by
  have hint {i : Int} (h : decide (compareInt x i = some .gt) = true) :
      decide (compareInt y i = some .gt) = true := by
    obtain ⟨o, o', ho, ho', -, hgt⟩ := compareInt_mono i ha hb hab
    rw [ho, decide_eq_true_iff, Option.some_inj] at h
    rw [ho', hgt h, decide_eq_true_iff]
  cases n with
  | truth t => exact hint h
  | int i => exact hint h
  | float z =>
    rw [below_float_iff, lt_iff] at h ⊢
    obtain ⟨c, a', hc, ha', hlt⟩ := h
    rw [ha, Option.some_inj] at ha'
    exact ⟨c, b, hc, hb, by omega⟩

/-- What a number is above has a level, which is not the greatest. -/
theorem level_of_above {n : Number} {x : Float} (h : n.above x = true) :
    ∃ l, level x = some l ∧ l < topLevel := by
  have hint {i : Int} (h : decide (compareInt x i = some .lt) = true) :
      ∃ l, level x = some l ∧ l < topLevel := by
    have h := of_decide_eq_true h
    rcases kind_cases x with hx | hx | hx | hx
    · obtain ⟨l, hl⟩ : ∃ l, level x = some l := ⟨_, level_eq (canonical x) hx⟩
      exact ⟨l, hl, (level_bounds (canonical x) hx hl).2⟩
    · exact ⟨_, level_of_infinity hx, by decide⟩
    · rw [compareInt_of_infinite hx] at h
      cases h
    · rw [compareInt_of_nan hx] at h
      cases h
  cases n with
  | truth t => exact hint h
  | int i => exact hint h
  | float y =>
    obtain ⟨a, b, ha, hb, hab⟩ := lt_iff.mp ((above_float_iff x y).mp h)
    exact ⟨a, ha, by have := (level_le_top hb).2; omega⟩

/-- What a number is below has a level, which is not the least. -/
theorem level_of_below {n : Number} {x : Float} (h : n.below x = true) :
    ∃ l, level x = some l ∧ -(topLevel : Int) < l := by
  have hint {i : Int} (h : decide (compareInt x i = some .gt) = true) :
      ∃ l, level x = some l ∧ -(topLevel : Int) < l := by
    have h := of_decide_eq_true h
    rcases kind_cases x with hx | hx | hx | hx
    · obtain ⟨l, hl⟩ : ∃ l, level x = some l := ⟨_, level_eq (canonical x) hx⟩
      exact ⟨l, hl, (level_bounds (canonical x) hx hl).1⟩
    · rw [compareInt_of_infinite hx] at h
      cases h
    · exact ⟨_, level_of_infinity hx, by decide⟩
    · rw [compareInt_of_nan hx] at h
      cases h
  cases n with
  | truth t => exact hint h
  | int i => exact hint h
  | float y =>
    obtain ⟨b, a, hb, ha, hab⟩ := lt_iff.mp ((below_float_iff x y).mp h)
    exact ⟨a, ha, by have := (level_le_top hb).1; omega⟩

/-- The later the start, the less time has passed. -/
theorem above_sub_of_le {n : Number} {x y z : Float} (hxy : x ≤ y) (h : n.above (z - x) = true) :
    n.above (z - y) = true := by
  obtain ⟨l, hl, hlt⟩ := level_of_above h
  obtain ⟨l', hl', hle⟩ := level_sub_of_later hxy hl hlt
  exact above_of_level_le hl' hl hle h

/-- The earlier the start, the more time has passed. -/
theorem below_sub_of_le {n : Number} {x y z : Float} (hxy : x ≤ y) (h : n.below (z - y) = true) :
    n.below (z - x) = true := by
  obtain ⟨l', hl', hlt⟩ := level_of_below h
  obtain ⟨l, hl, hle⟩ := level_sub_of_earlier hxy hl' hlt
  exact below_of_level_le hl' hl hle h

/-- A number that is not zero or less is not below zero. -/
theorem not_below_zero {n : Number} (h : n.atMost 0 = false) : n.below 0 = false := by
  have hint {i : Int} (hi : 0 < i) : decide (compareInt 0 i = some .gt) = false := by
    have hzero : quanta (0 : Float).toModel.unpack = 0 := by decide
    have hpos : 0 < i * 2 ^ 1074 := Int.mul_pos hi (Int.pow_pos (by decide))
    rw [compareInt_of_finite (x := 0) (by decide), hzero, compare_lt_iff_lt.mpr hpos]
    rfl
  cases n with
  | truth b =>
    cases b with
    | false => cases h
    | true => exact hint Int.one_pos
  | int i => exact hint (Int.not_le.mp (of_decide_eq_false h))
  | float x =>
    refine Bool.eq_false_iff.mpr fun hb => ?_
    rw [atMost, compareInt_of_neg ((below_float_iff 0 x).mp hb)] at h
    cases h

/-- Since now no time has passed, which is no longer than a time that is not zero or less. -/
theorem not_below_sub_self {n : Number} (h : n.atMost 0 = false) (x : Float) :
    n.below (x - x) = false := by
  refine Bool.eq_false_iff.mpr fun hb => ?_
  obtain ⟨l, hl, -⟩ := level_of_below hb
  obtain rfl := level_sub_self hl
  have hzero : level 0 = some 0 := by decide
  exact Bool.eq_false_iff.mp (not_below_zero h) (below_of_level_le hl hzero (Int.le_refl 0) hb)

end Number
end DiagnosticWatch
