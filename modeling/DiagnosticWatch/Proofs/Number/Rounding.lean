/-
# How a difference is rounded

A finite double is a whole number of quanta, the least positive double. The
difference of two is the double nearest to the exact difference, and of two
that are as near the one with an even mantissa. Shifting a mantissa to the
right keeps two bits of what falls off, which is enough to round later; in
quarters of the last place the shifts and the rounding are monotone, and so is
the level of the result.

Key definitions: `Double.nearest`, `Double.rank`, `Double.nearestLevel`, `Double.quanta`.
Key theorems: `Double.nearestLevel_mono`, `Double.level_eq`, `Double.level_sub`,
`Double.quanta_le_of_level_le`.
-/
import DiagnosticWatch.Proofs.Number.Level

namespace DiagnosticWatch
namespace Double

open Float.Model Float.Model.UnpackedFloat

/-- A mantissa with its two residual bits, as one number: a quarter is the unit. -/
def quarters (em : ExtendedMantissa) : Nat :=
  4 * em.mantissa + 2 * em.roundBit.toNat + em.stickyBit.toNat

theorem quarters_shiftRightOne (em : ExtendedMantissa) :
    quarters em.shiftRightOne = quarters em / 4 * 2 + min 1 (quarters em % 4) := by
  obtain ⟨m, r, s⟩ := em
  have hm : (m % 2 != 0).toNat = m % 2 := by
    rcases Nat.mod_two_eq_zero_or_one m with h | h <;> rw [h] <;> rfl
  simp only [quarters, ExtendedMantissa.shiftRightOne, hm]
  cases r <;> cases s <;> simp <;> omega

theorem roundedMantissa_eq (em : ExtendedMantissa) :
    em.roundedMantissa = (quarters em + 1 + em.mantissa % 2) / 4 := by
  obtain ⟨m, r, s⟩ := em
  cases r <;> cases s <;>
    simp [quarters, ExtendedMantissa.roundedMantissa, ExtendedMantissa.accuracy,
      Accuracy.roundToNearestEven] <;> omega

theorem mantissa_eq (em : ExtendedMantissa) : em.mantissa = quarters em / 4 := by
  have hr := em.roundBit.toNat_le
  have hs := em.stickyBit.toNat_le
  unfold quarters
  omega

/-- A mantissa with nothing behind it. -/
def whole (v : Nat) : ExtendedMantissa := ⟨v, false, false⟩

theorem shift_succ (em : ExtendedMantissa) (k : Nat) :
    em >>> (k + 1) = (em >>> k).shiftRightOne := rfl

theorem quarters_shift_mono {em em' : ExtendedMantissa} (h : quarters em ≤ quarters em') (k : Nat) :
    quarters (em >>> k) ≤ quarters (em' >>> k) := by
  induction k with
  | zero => exact h
  | succ k ih =>
    rw [shift_succ, shift_succ, quarters_shiftRightOne, quarters_shiftRightOne]
    omega

theorem shift_succ' (em : ExtendedMantissa) (k : Nat) :
    em >>> (k + 1) = em.shiftRightOne >>> k := by
  induction k with
  | zero => rfl
  | succ k ih => rw [shift_succ, ih, shift_succ]

theorem whole_shift (v j k : Nat) : whole (v * 2 ^ j) >>> (j + k) = whole v >>> k := by
  induction j with
  | zero => simp
  | succ j ih =>
    have h : (whole (v * 2 ^ (j + 1))).shiftRightOne = whole (v * 2 ^ j) := by
      simp [whole, ExtendedMantissa.shiftRightOne, pow_succ, ← Nat.mul_assoc]
    rw [Nat.add_right_comm, shift_succ', h, ih]

theorem mantissa_shift (em : ExtendedMantissa) (k : Nat) :
    (em >>> k).mantissa = em.mantissa / 2 ^ k := by
  induction k with
  | zero => exact (Nat.div_one _).symm
  | succ k ih =>
    rw [shift_succ, pow_succ, ← Nat.div_div_eq_div_mul, ← ih]
    rfl

/-- The multiple of `2 ^ k` nearest to `v`, divided by `2 ^ k`; of two, the even one. -/
def nearest (v k : Nat) : Nat :=
  (whole v >>> k).roundedMantissa

theorem nearest_mono {v v' : Nat} (h : v ≤ v') (k : Nat) : nearest v k ≤ nearest v' k := by
  have hle : quarters (whole v) ≤ quarters (whole v') := by simp [quarters, whole, h]
  have hq := quarters_shift_mono hle k
  have hm := mantissa_eq (whole v >>> k)
  have hm' := mantissa_eq (whole v' >>> k)
  rw [nearest, nearest, roundedMantissa_eq, roundedMantissa_eq]
  rcases (Nat.div_le_div_right hq : _ / 4 ≤ _ / 4).eq_or_lt with heq | hlt
  · rw [hm, hm', heq]
    exact Nat.div_le_div_right (by omega)
  · omega

theorem nearest_bounds (v k : Nat) : v / 2 ^ k ≤ nearest v k ∧ nearest v k ≤ v / 2 ^ k + 1 := by
  have hm : (whole v >>> k).mantissa = v / 2 ^ k := mantissa_shift _ k
  rw [nearest, roundedMantissa_eq, ← hm]
  have := (whole v >>> k).roundBit.toNat_le
  have := (whole v >>> k).stickyBit.toNat_le
  simp only [quarters]
  omega

theorem nearest_exact (v k : Nat) : nearest (v * 2 ^ k) k = v := by
  have h : whole (v * 2 ^ k) >>> k = whole v := whole_shift v k 0
  rw [nearest, h]
  rfl

/-- The power of two of which a double near `v` is a multiple. -/
def scale (v : Nat) : Nat :=
  v.log2 - 52

/-- The level of the double nearest to `v` quanta, if none were too large. -/
def rank (v : Nat) : Nat :=
  scale v * 2 ^ 52 + nearest v (scale v)

theorem lt_of_scale (v : Nat) : v / 2 ^ scale v < 2 ^ 53 := by
  rw [Nat.div_lt_iff_lt_mul (Nat.two_pow_pos _), ← pow_add]
  exact Nat.lt_of_lt_of_le Nat.lt_log2_self (Nat.pow_le_pow_right (by decide) (by unfold scale; omega))

theorem le_of_scale {v : Nat} (h : 0 < scale v) : 2 ^ 52 ≤ v / 2 ^ scale v := by
  have hv : v ≠ 0 := by rintro rfl; simp [scale] at h
  rw [Nat.le_div_iff_mul_le (Nat.two_pow_pos _), ← pow_add]
  refine Nat.le_trans ?_ (Nat.log2_self_le hv)
  exact Nat.pow_le_pow_right (by decide) (by unfold scale at *; omega)

theorem log2_mono {v v' : Nat} (h : v ≤ v') : v.log2 ≤ v'.log2 := by
  rcases v.eq_zero_or_pos with rfl | hv
  · exact Nat.zero_le _
  · exact (Nat.le_log2 (by omega)).mpr ((Nat.log2_self_le (by omega)).trans h)

theorem rank_mono {v v' : Nat} (h : v ≤ v') : rank v ≤ rank v' := by
  have hs : scale v ≤ scale v' := Nat.sub_le_sub_right (log2_mono h) 52
  unfold rank
  rcases hs.eq_or_lt with hs | hs
  · rw [hs]
    exact Nat.add_le_add_left (nearest_mono h _) _
  · have h1 := (nearest_bounds v (scale v)).2
    have h2 := (nearest_bounds v' (scale v')).1
    have h3 := lt_of_scale v
    have h4 := le_of_scale (v := v') (by omega)
    omega


theorem targetExponent_eq (m : Nat) (e : Int) :
    Format.binary64.targetExponent (totalExponent m e) = max ((m.log2 : Int) + e - 52) (-1074) := by
  have h53 : (Format.binary64.mantissaBits : Int) = 53 := rfl
  have hmin : Format.binary64.minExponent = -1074 := rfl
  unfold Format.targetExponent totalExponent
  rw [h53, hmin]
  omega

/-- The bits that a mantissa has too many. -/
def excess (m : Nat) (e : Int) : Nat :=
  (max ((m.log2 : Int) + e - 52) (-1074) - e).toNat

theorem shiftToTarget_eq (m : Nat) (e : Int) :
    shiftToTargetExponent .binary64 m e .exact = (whole m >>> excess m e, e + excess m e) := by
  rw [excess, ← targetExponent_eq]
  rfl

theorem log2_lt_of_lt {m k : Nat} (hm : m < 2 ^ (k + 1)) : m.log2 ≤ k := by
  rcases m.eq_zero_or_pos with rfl | h
  · simp
  · exact Nat.lt_succ_iff.mp ((Nat.log2_lt (by omega)).mpr hm)

/-- What is rounded stays as it is. -/
theorem excess_of_lt {m : Nat} {e : Int} (h : m < 2 ^ 53) (he : -1074 ≤ e) : excess m e = 0 := by
  have hlog : m.log2 ≤ 52 := log2_lt_of_lt h
  unfold excess
  omega

theorem excess_of_full {e : Int} (he : -1074 ≤ e) : excess (2 ^ 53) e = 1 := by
  rw [excess, Nat.log2_two_pow]
  omega

/-- The number of a mantissa and an exponent. -/
def build (s : Sign) (m : Nat) (e : Int) : UnpackedFloat :=
  if h : m = 0 then .zero s else .finite s m e (Nat.pos_of_ne_zero h)

theorem roundWithAccuracy_eq (s : Sign) (m : Nat) (e : Int) :
    roundWithAccuracy .binary64 s m e .exact =
      build s (nearest m (excess m e) / 2 ^ excess (nearest m (excess m e)) (e + excess m e))
        (e + excess m e + excess (nearest m (excess m e)) (e + excess m e)) := by
  have hm (r : Nat) (f : Int) : (whole r >>> excess r f).mantissa = r / 2 ^ excess r f :=
    mantissa_shift _ _
  simp only [roundWithAccuracy, shiftToTarget_eq, hm]
  rfl

theorem unpackSign_packComponents {spec : Format} (s : Sign) (e : BitVec spec.exponentBits)
    (m : BitVec spec.mantissaBitsWithoutImplicit) :
    Sign.ofBitVec (unpackSign (packComponents spec s e m)) = s := by
  have h : unpackSign (packComponents spec s e m) = s.toBitVec := by
    ext i hi
    obtain rfl : i = 0 := by omega
    simp [unpackSign, packComponents, BitVec.getLsbD_append, BitVec.getElem_append]
  rw [h]
  cases s <;> rfl

/-- What is unpacked from a sign, an exponent and a mantissa. -/
theorem unpack_packComponents (s : Sign) (e : BitVec 11) (m : BitVec 52) (he : e ≠ -1#11) :
    level? (UnpackedFloat.unpack .binary64 (packComponents .binary64 s e m)) =
      some (s.apply (e.toNat * 2 ^ 52 + m.toNat)) := by
  rw [UnpackedFloat.unpack]
  simp only [unpackMantissa_packComponents, unpackExponent_packComponents, unpackSign_packComponents,
    exponentBias_eq]
  rw [if_neg he]
  split_ifs with hz hm
  · subst hz hm
    cases s <;> simp [level?, Sign.apply]
  · subst hz
    simp [level?]
  · simp only [level?, toNat_one_append]
    congr 2
    push_cast
    ring

/-- Something rounded, as it is packed. -/
theorem level_build {s : Sign} {m k : Nat} (hm : m < 2 ^ 53) (hk : 2 ^ 52 ≤ m ∨ k = 0) :
    level? (UnpackedFloat.unpack .binary64 (UnpackedFloat.pack .binary64 (build s m (k - 1074)))) =
      some (s.apply (min (k * 2 ^ 52 + m) topLevel : Nat)) := by
  have htop : topLevel = 2047 * 2 ^ 52 := rfl
  unfold build
  split_ifs with h0
  · obtain rfl : k = 0 := by omega
    subst h0
    cases s <;> rfl
  · have hbias : ((k : Int) - 1074 + Format.binary64.exponentBias +
        Format.binary64.mantissaBitsWithoutImplicit).toNat = k + 1 := by
      rw [exponentBias_eq, show Format.binary64.mantissaBitsWithoutImplicit = 52 from rfl]
      omega
    have hone : (BitVec.ofNat 52 m).toNat = m % 2 ^ 52 := BitVec.toNat_ofNat m 52
    have hfull : (m.log2 + 1 = Format.binary64.mantissaBits) ↔ 2 ^ 52 ≤ m := by
      rw [show Format.binary64.mantissaBits = 53 from rfl, ← Nat.le_log2 h0]
      have := log2_lt_of_lt hm
      omega
    rw [UnpackedFloat.pack]
    simp only [hbias, hfull]
    split_ifs with hbig hle
    · rw [Nat.min_eq_right (by omega)]
      cases s <;> rfl
    · have hexp : (BitVec.ofNat 11 (k + 1)).toNat = k + 1 := by
        rw [BitVec.toNat_ofNat]; omega
      have hne : BitVec.ofNat 11 (k + 1) ≠ -1#11 := fun h => by
        have := congrArg BitVec.toNat h
        rw [hexp] at this
        exact absurd this (show k + 1 ≠ 2047 by omega)
      rw [unpack_packComponents _ _ _ hne, hexp, hone, Nat.min_eq_left (by omega)]
      refine congrArg some (congrArg s.apply ?_)
      omega
    · rw [unpack_packComponents _ _ _ (by decide), hone, Nat.min_eq_left (by omega)]
      refine congrArg some (congrArg s.apply ?_)
      rw [show (0#11).toNat = 0 from rfl]
      omega

theorem log2_mul_two_pow {m : Nat} (hm : 0 < m) (j : Nat) : (m * 2 ^ j).log2 = m.log2 + j := by
  induction j with
  | zero => simp
  | succ j ih =>
    have hpos : 0 < m * 2 ^ j := Nat.mul_pos hm (Nat.two_pow_pos j)
    rw [pow_succ, ← Nat.mul_assoc, Nat.mul_comm, Nat.log2_two_mul hpos.ne', ih]
    rfl

theorem scale_mul_two_pow {m : Nat} {e : Int} (hm : 0 < m) (he : -1074 ≤ e) :
    (scale (m * 2 ^ (e + 1074).toNat) : Int) = max ((m.log2 : Int) + e - 52) (-1074) + 1074 := by
  rw [scale, log2_mul_two_pow hm]
  omega

/-- The level of a mantissa that is rounded. -/
theorem level_roundWithAccuracy {s : Sign} {m : Nat} {e : Int} (hm : 0 < m) (he : -1074 ≤ e)
    (ht : e ≤ max ((m.log2 : Int) + e - 52) (-1074)) :
    level? (UnpackedFloat.unpack .binary64
        (UnpackedFloat.pack .binary64 (roundWithAccuracy .binary64 s m e .exact))) =
      some (s.apply (min (rank (m * 2 ^ (e + 1074).toNat)) topLevel : Nat)) := by
  generalize hv : m * 2 ^ (e + 1074).toNat = v
  have hscale := scale_mul_two_pow hm he
  rw [hv] at hscale
  have hsum : (e + 1074).toNat + excess m e = scale v := by unfold excess; omega
  have hnear : nearest m (excess m e) = nearest v (scale v) := by
    rw [nearest, nearest, ← hsum, ← hv, whole_shift]
  have hexp : e + excess m e = scale v - 1074 := by omega
  have hlow : 0 < scale v → 2 ^ 52 ≤ nearest v (scale v) := fun h =>
    (le_of_scale h).trans (nearest_bounds v _).1
  have hhigh : nearest v (scale v) ≤ 2 ^ 53 :=
    (nearest_bounds v _).2.trans (lt_of_scale v)
  rw [roundWithAccuracy_eq, hnear, hexp, rank]
  rcases hhigh.lt_or_eq with hlt | heq
  · rw [excess_of_lt hlt (by omega), pow_zero, Nat.div_one, Nat.cast_zero, add_zero]
    exact level_build hlt (by omega)
  · have hnext : (scale v : Int) - 1074 + (1 : Nat) = (scale v + 1 : Nat) - 1074 := by omega
    have hrank : scale v * 2 ^ 52 + 2 ^ 53 = (scale v + 1) * 2 ^ 52 + 2 ^ 53 / 2 := by omega
    rw [heq, excess_of_full (by omega), pow_one, hnext, hrank]
    exact level_build (by decide) (.inl (by decide))


/-- The level of the double nearest to a number of quanta. -/
def nearestLevel (v : Int) : Int :=
  if v < 0 then -(min (rank v.natAbs) topLevel : Nat) else (min (rank v.natAbs) topLevel : Nat)

theorem nearestLevel_mono {v v' : Int} (h : v ≤ v') : nearestLevel v ≤ nearestLevel v' := by
  unfold nearestLevel
  split_ifs with hv hv'
  · have := rank_mono (show v'.natAbs ≤ v.natAbs by omega)
    omega
  · omega
  · omega
  · have := rank_mono (show v.natAbs ≤ v'.natAbs by omega)
    omega

theorem nearestLevel_zero : nearestLevel 0 = 0 := by
  have h0 : rank 0 = 0 := by
    have hn : nearest 0 0 = 0 := nearest_exact 0 0
    rw [rank, show scale 0 = 0 from rfl, hn, Nat.zero_mul]
  rw [nearestLevel, if_neg (lt_irrefl 0), Int.natAbs_zero, h0]
  rfl

theorem nearestLevel_neg (v : Int) : nearestLevel (-v) = -nearestLevel v := by
  rcases lt_trichotomy v 0 with h | rfl | h <;> unfold nearestLevel
  · rw [Int.natAbs_neg, if_neg (by omega), if_pos h, neg_neg]
  · rw [neg_zero, ← nearestLevel, nearestLevel_zero, neg_zero]
  · rw [Int.natAbs_neg, if_pos (by omega), if_neg (by omega)]

theorem nearestLevel_apply (s : Sign) (v : Nat) :
    nearestLevel (s.apply v) = s.apply (min (rank v) topLevel : Nat) := by
  have hpos : nearestLevel v = (min (rank v) topLevel : Nat) := if_neg (by omega)
  cases s
  · exact (nearestLevel_neg v).trans (congrArg Neg.neg hpos)
  · exact hpos

/-- The level of a mantissa and an exponent that are rounded. -/
theorem level_round {s : Sign} {m : Nat} {e : Int} (hm : 0 < m) (he : -1074 ≤ e) :
    level? (UnpackedFloat.unpack .binary64
      (UnpackedFloat.pack .binary64 (UnpackedFloat.round .binary64 s m e))) =
      some (nearestLevel (s.apply (m * 2 ^ (e + 1074).toNat : Nat))) := by
  obtain ⟨k, hk⟩ : ∃ k, k = (e - max ((m.log2 : Int) + e - 52) (-1074)).toNat := ⟨_, rfl⟩
  have hround : UnpackedFloat.round .binary64 s m e =
      roundWithAccuracy .binary64 s (m * 2 ^ k) (e - k) .exact := by
    rw [hk, ← targetExponent_eq, ← Nat.shiftLeft_eq]
    rfl
  have hlog : (m * 2 ^ k).log2 = m.log2 + k := log2_mul_two_pow hm k
  have hpow : m * 2 ^ k * 2 ^ (e - k + 1074).toNat = m * 2 ^ (e + 1074).toNat := by
    rw [Nat.mul_assoc, ← pow_add]
    congr 2
    omega
  rw [hround, level_roundWithAccuracy (Nat.mul_pos hm (Nat.two_pow_pos k)) (by omega) (by omega),
    hpow, nearestLevel_apply]

theorem level_pack_zero (s : Sign) :
    level? (UnpackedFloat.unpack .binary64 (UnpackedFloat.pack .binary64 (.zero s))) = some 0 := by
  cases s <;> decide

theorem level_normalize {m e : Int} {s : Sign} (he : -1074 ≤ e) :
    level? (UnpackedFloat.unpack .binary64
      (UnpackedFloat.pack .binary64 (UnpackedFloat.normalize .binary64 m e s))) =
      some (nearestLevel (m * 2 ^ (e + 1074).toNat)) := by
  unfold UnpackedFloat.normalize
  rcases lt_trichotomy m 0 with h | rfl | h
  · rw [compare_lt_iff_lt.mpr h]
    simp only
    rw [level_round (by omega) he]
    refine congrArg some (congrArg nearestLevel ?_)
    simp only [Sign.apply]
    push_cast
    rw [Int.toNat_of_nonneg (by omega)]
    ring
  · rw [compare_eq_iff_eq.mpr rfl, zero_mul, nearestLevel_zero]
    exact level_pack_zero s
  · rw [compare_gt_iff_gt.mpr h]
    simp only
    rw [level_round (by omega) he]
    refine congrArg some (congrArg nearestLevel ?_)
    simp only [Sign.apply]
    push_cast
    rw [Int.toNat_of_nonneg (by omega)]

/-- The value of a finite double, in quanta. -/
def quanta : UnpackedFloat → Int
  | .finite s m e _ => s.apply (m * 2 ^ (e + 1074).toNat : Nat)
  | _ => 0

theorem rank_of_canonical {m k : Nat} (hm : m < 2 ^ 53) (hk : 2 ^ 52 ≤ m ∨ k = 0) :
    rank (m * 2 ^ k) = k * 2 ^ 52 + m := by
  have hs : scale (m * 2 ^ k) = k := by
    rcases m.eq_zero_or_pos with rfl | h0
    · obtain rfl : k = 0 := by omega
      rfl
    · have hlog := log2_lt_of_lt hm
      have hle : 2 ^ 52 ≤ m → 52 ≤ m.log2 := (Nat.le_log2 h0.ne').mpr
      rw [scale, log2_mul_two_pow h0]
      omega
  rw [rank, hs, nearest_exact]

/-- What a double stands for is nearest to itself. -/
theorem level_eq {x : UnpackedFloat} (hx : Canonical x) (hf : x.isFinite = true) :
    level? x = some (nearestLevel (quanta x)) := by
  cases x with
  | notANumber | infinity s => cases hf
  | zero s => exact congrArg some nearestLevel_zero.symm
  | finite s m e hm =>
    obtain ⟨hm1, he1, he2, hm2⟩ := hx
    have htop : topLevel = 2047 * 2 ^ 52 := rfl
    rw [quanta, nearestLevel_apply, rank_of_canonical hm1 (by omega), Nat.min_eq_left (by omega)]
    refine congrArg some (congrArg s.apply ?_)
    push_cast
    rw [Int.toNat_of_nonneg (by omega)]

theorem quanta_neg (s : Sign) (m : Nat) (e : Int) (hm : 0 < m) :
    quanta (.finite (-s) m e hm) = -quanta (.finite s m e hm) := by
  cases s
  · exact (neg_neg _).symm
  · rfl

/-- What is canonical stays as it is when it is packed. -/
theorem level_pack {x : UnpackedFloat} (hx : Canonical x) :
    level? (UnpackedFloat.unpack .binary64 (UnpackedFloat.pack .binary64 x)) = level? x := by
  cases x with
  | notANumber => rfl
  | infinity s => cases s <;> rfl
  | zero s => exact level_pack_zero s
  | finite s m e hm =>
    obtain ⟨hm1, he1, he2, hm2⟩ := hx
    obtain ⟨k, rfl⟩ : ∃ k : Nat, e = k - 1074 := ⟨(e + 1074).toNat, by omega⟩
    have htop : topLevel = 2047 * 2 ^ 52 := rfl
    have hb : build s m (k - 1074) = .finite s m (k - 1074) hm := dif_neg hm.ne'
    rw [← hb, level_build hm1 (by omega), hb, Nat.min_eq_left (by omega)]
    refine congrArg some (congrArg s.apply ?_)
    omega

theorem apply_mul (s : Sign) (m n : Int) : s.apply (m * n) = s.apply m * n := by
  cases s
  · exact (Int.neg_mul m n).symm
  · rfl

/-- A difference of finite doubles is the double nearest to the exact one. -/
theorem level_sub {x y : UnpackedFloat} (hx : Canonical x) (hy : Canonical y)
    (hfx : x.isFinite = true) (hfy : y.isFinite = true) :
    level? (UnpackedFloat.unpack .binary64
      (UnpackedFloat.pack .binary64 (UnpackedFloat.sub .binary64 x y))) =
      some (nearestLevel (quanta x - quanta y)) := by
  cases x with
  | notANumber | infinity s => cases hfx
  | zero s =>
    cases y with
    | notANumber | infinity s' => cases hfy
    | zero s' =>
      refine Eq.trans ?_ (congrArg some nearestLevel_zero.symm)
      cases s <;> cases s' <;> exact level_pack_zero _
    | finite s' n f hn =>
      have hc : Canonical (.finite (-s') n f hn) := hy
      have hsub : UnpackedFloat.sub .binary64 (.zero s) (.finite s' n f hn) = .finite (-s') n f hn := rfl
      rw [hsub, level_pack hc, level_eq hc rfl, quanta_neg]
      exact congrArg some (congrArg nearestLevel (zero_sub _).symm)
  | finite s m e hm =>
    cases y with
    | notANumber | infinity s' => cases hfy
    | zero s' =>
      have hsub : UnpackedFloat.sub .binary64 (.finite s m e hm) (.zero s') = .finite s m e hm := rfl
      rw [hsub, level_pack hx, level_eq hx rfl]
      exact congrArg some (congrArg nearestLevel (sub_zero _).symm)
    | finite s' n f hn =>
      obtain ⟨-, he, -⟩ := hx
      obtain ⟨-, hf, -⟩ := hy
      have hshift : ∀ (s : Sign) (m : Nat) {g : Int}, min e f ≤ g →
          s.apply (m <<< (g - min e f).toNat : Nat) * 2 ^ (min e f + 1074).toNat =
            s.apply (m * 2 ^ (g + 1074).toNat : Nat) := fun s m g hg => by
        have hadd : (g + 1074).toNat = (g - min e f).toNat + (min e f + 1074).toNat := by omega
        rw [hadd, pow_add, ← Nat.mul_assoc, Nat.shiftLeft_eq,
          Nat.cast_mul _ (2 ^ (min e f + 1074).toNat), apply_mul, Nat.cast_pow]
        rfl
      have hsub : UnpackedFloat.sub .binary64 (.finite s m e hm) (.finite s' n f hn) =
          UnpackedFloat.normalize .binary64 (s.apply (m <<< (e - min e f).toNat : Nat) -
            s'.apply (n <<< (f - min e f).toNat : Nat)) (min e f) .positive := rfl
      rw [hsub, level_normalize (by omega), Int.sub_mul, hshift s m (by omega),
        hshift s' n (by omega)]
      rfl


/-- Finite doubles of one level stand for the same. -/
theorem quanta_of_level_eq {x y : UnpackedFloat} (hx : Canonical x) (hy : Canonical y)
    (hfx : x.isFinite = true) (hfy : y.isFinite = true) (h : level? x = level? y) :
    quanta x = quanta y := by
  cases x with
  | notANumber | infinity s => cases hfx
  | zero s =>
    cases y with
    | notANumber | infinity s' => cases hfy
    | zero s' => rfl
    | finite s' n f hn =>
      obtain ⟨-, hf, -⟩ := hy
      have h0 : 0 = s'.apply ((f + 1074) * 2 ^ 52 + n) := Option.some_inj.mp h
      cases s' <;> simp only [Sign.apply] at h0 <;> omega
  | finite s m e hm =>
    obtain ⟨hm1, he, -, hm2⟩ := hx
    cases y with
    | notANumber | infinity s' => cases hfy
    | zero s' =>
      have h0 : s.apply ((e + 1074) * 2 ^ 52 + m) = 0 := Option.some_inj.mp h
      cases s <;> simp only [Sign.apply] at h0 <;> omega
    | finite s' n f hn =>
      obtain ⟨hn1, hf, -, hn2⟩ := hy
      have h0 : s.apply ((e + 1074) * 2 ^ 52 + m) = s'.apply ((f + 1074) * 2 ^ 52 + n) :=
        Option.some_inj.mp h
      have hs : s = s' := by
        cases s <;> cases s' <;> first | rfl | (simp only [Sign.apply] at h0; omega)
      subst hs
      have h1 : (e + 1074) * 2 ^ 52 + m = (f + 1074) * 2 ^ 52 + n := by
        cases s <;> simp only [Sign.apply] at h0 <;> omega
      obtain rfl : e = f := by omega
      obtain rfl : m = n := by omega
      rfl

/-- Of finite doubles the one of the greater level stands for more. -/
theorem quanta_le_of_level_le {x y : UnpackedFloat} {a b : Int} (hx : Canonical x) (hy : Canonical y)
    (hfx : x.isFinite = true) (hfy : y.isFinite = true) (ha : level? x = some a)
    (hb : level? y = some b) (h : a ≤ b) : quanta x ≤ quanta y := by
  by_contra hlt
  have hle : nearestLevel (quanta y) ≤ nearestLevel (quanta x) := nearestLevel_mono (by omega)
  have hxa := level_eq hx hfx
  have hyb := level_eq hy hfy
  rw [ha, Option.some_inj] at hxa
  rw [hb, Option.some_inj] at hyb
  have heq := quanta_of_level_eq hx hy hfx hfy (by rw [ha, hb, show a = b by omega])
  omega

end Double
end DiagnosticWatch
