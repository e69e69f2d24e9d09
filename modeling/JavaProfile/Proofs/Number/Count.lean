import JavaProfile.Confidence.Basic
import Mathlib

/-!
Numbers of files as doubles. A quotient of two of them can be told where they are equal, where the
first is zero and, up to its rounding, by how many binary digits one is longer.
-/

namespace JavaProfile

open Float.Model Float.Model.UnpackedFloat

/-- A positive double in normal form of `2 ^ n` or more, or what exceeds all doubles. -/
inductive AtLeast (n : ℤ) : UnpackedFloat → Prop
  | infinity : AtLeast n (.infinity .positive)
  | finite {m : ℕ} {e : ℤ} (hm : 0 < m) (hlow : 2 ^ 52 ≤ m) (hhigh : m < 2 ^ 53) (he : n ≤ e + 52) :
    AtLeast n (.finite .positive m e hm)

variable {m n : ℕ} {e : ℤ} {x y : Float}

theorem AtLeast.mono {n n' : ℤ} {f : UnpackedFloat} (h : AtLeast n f) (hle : n' ≤ n) :
    AtLeast n' f := by
  cases h with
  | infinity => exact .infinity
  | finite hm hlow hhigh he => exact .finite hm hlow hhigh (hle.trans he)

/-! ### Rounding -/

theorem mantissa_shift (em : ExtendedMantissa) (n : ℕ) :
    (em >>> n).mantissa = em.mantissa / 2 ^ n := by
  change (n.repeat ExtendedMantissa.shiftRightOne em).mantissa = _
  induction n with
  | zero => simp [Nat.repeat]
  | succ n ih =>
    rw [Nat.repeat, ExtendedMantissa.shiftRightOne, ih, Nat.div_div_eq_div_mul, ← Nat.pow_succ]

theorem roundedMantissa_bounds (em : ExtendedMantissa) :
    em.mantissa ≤ em.roundedMantissa ∧ em.roundedMantissa ≤ em.mantissa + 1 := by
  obtain ⟨m, _ | _, _ | _⟩ := em
  all_goals
    simp only [ExtendedMantissa.roundedMantissa, ExtendedMantissa.accuracy,
      Accuracy.roundToNearestEven]
    omega

theorem mantissa_ofMantissaAndAccuracy (m : ℕ) (accuracy : Accuracy) :
    (ExtendedMantissa.ofMantissaAndAccuracy m accuracy).mantissa = m := by
  obtain _ | _ | _ | _ := accuracy <;> rfl

theorem targetExponent_eq (hnormal : -1022 ≤ m.log2 + e) :
    Format.binary64.targetExponent (totalExponent m e) = m.log2 + e - 52 := by
  change max ((m.log2 : ℤ) + 1 + e - 53) (-1074) = _
  omega

theorem shift_normal (hm : 2 ^ 52 ≤ m) (hnormal : -1022 ≤ m.log2 + e) (accuracy : Accuracy) :
    let s := shiftToTargetExponent Format.binary64 m e accuracy
    2 ^ 52 ≤ s.1.mantissa ∧ s.1.mantissa < 2 ^ 53 ∧ s.2 = m.log2 + e - 52 := by
  have hlog : 52 ≤ m.log2 := (Nat.le_log2 (by omega)).mpr hm
  have hshift : ((m.log2 : ℤ) + e - 52 - e).toNat = m.log2 - 52 := by omega
  have hlow := Nat.log2_self_le (show m ≠ 0 by omega)
  have hhigh := Nat.lt_log2_self (n := m)
  dsimp only [shiftToTargetExponent, shiftToExponent]
  rw [targetExponent_eq hnormal, hshift, mantissa_shift, mantissa_ofMantissaAndAccuracy]
  refine ⟨?_, ?_, by omega⟩
  · rw [Nat.le_div_iff_mul_le (Nat.two_pow_pos _), ← Nat.pow_add]
    rwa [show 52 + (m.log2 - 52) = m.log2 by omega]
  · rw [Nat.div_lt_iff_lt_mul (Nat.two_pow_pos _), ← Nat.pow_add]
    rwa [show 53 + (m.log2 - 52) = m.log2 + 1 by omega]

theorem atLeast_round (hm : 2 ^ 52 ≤ m) (hnormal : -1022 ≤ m.log2 + e) (accuracy : Accuracy) :
    AtLeast (m.log2 + e) (roundWithAccuracy Format.binary64 .positive m e accuracy) := by
  obtain ⟨hlow, hhigh, he⟩ := shift_normal hm hnormal accuracy
  generalize hs : shiftToTargetExponent Format.binary64 m e accuracy = s at hlow hhigh he
  obtain ⟨hrounded, hcarry⟩ := roundedMantissa_bounds s.1
  have hlog : 52 ≤ s.1.roundedMantissa.log2 := (Nat.le_log2 (by omega)).mpr (by omega)
  obtain ⟨hlow', hhigh', he'⟩ := shift_normal (m := s.1.roundedMantissa) (e := s.2) (by omega)
    (by omega) .exact
  rw [roundWithAccuracy, hs]
  dsimp only
  rw [dif_neg (by omega)]
  exact .finite _ hlow' hhigh' (by omega)

/-! ### Packing -/

theorem unpack_pack_infinity (sign : Sign) :
    unpack Format.binary64 (pack Format.binary64 (.infinity sign)) = .infinity sign := by
  cases sign <;> rfl

theorem unpack_pack_normal (sign : Sign) (hm : 0 < m) (hlow : 2 ^ 52 ≤ m) (hhigh : m < 2 ^ 53)
    (he : -1074 ≤ e) :
    unpack Format.binary64 (pack Format.binary64 (.finite sign m e hm)) =
      if e ≤ 971 then .finite sign m e hm else .infinity sign := by
  have hlog : m.log2 = 52 := (Nat.log2_eq_iff (by omega)).mpr ⟨hlow, hhigh⟩
  have hbiased : (e + Format.binary64.exponentBias +
      Format.binary64.mantissaBitsWithoutImplicit).toNat = (e + 1075).toNat := by
    change (e + (2 ^ (11 - 1) - 1 : ℕ) + (52 : ℕ)).toNat = _
    omega
  rw [UnpackedFloat.pack]
  dsimp only
  rw [hlog, hbiased]
  -- Too great an exponent makes the result infinite. Else the three parts are read back.
  split
  · next hlarge =>
    rw [if_neg (by omega)]
    exact unpack_pack_infinity sign
  · next hsmall =>
    have hexponent : (BitVec.ofNat 11 (e + 1075).toNat).toNat = (e + 1075).toNat := by
      rw [BitVec.toNat_ofNat, Nat.mod_eq_of_lt (by omega)]
    have hinfinite : BitVec.ofNat 11 (e + 1075).toNat ≠ -1#11 := by
      intro heq
      rw [heq] at hexponent
      change 2 ^ 11 - 1 = _ at hexponent
      omega
    have hzero : BitVec.ofNat 11 (e + 1075).toNat ≠ 0#11 := by
      intro heq
      rw [heq] at hexponent
      change 0 = _ at hexponent
      omega
    have hfraction : (BitVec.ofNat 52 m).toNat = m - 2 ^ 52 := by
      rw [BitVec.toNat_ofNat]
      omega
    have hmantissa : (1#1 ++ BitVec.ofNat 52 m).toNat = m := by
      rw [BitVec.toNat_append, ← Nat.shiftLeft_add_eq_or_of_lt (BitVec.isLt _), hfraction,
        Nat.shiftLeft_eq, show (1#1).toNat = 1 from rfl]
      omega
    rw [if_pos (show 52 + 1 = Format.binary64.mantissaBits from rfl), if_pos (by omega),
      UnpackedFloat.unpack]
    simp only [unpackMantissa_packComponents, unpackExponent_packComponents,
      unpackSign_packComponents, Sign.ofBitVec_toBitVec, hmantissa, hexponent]
    rw [if_neg hinfinite, if_neg hzero]
    congr 1
    change ((e + 1075).toNat : ℤ) - ((2 ^ (11 - 1) - 1 : ℕ) + (52 : ℕ)) = e
    omega

theorem AtLeast.unpack_pack {n : ℤ} {f : UnpackedFloat} (h : AtLeast n f) (hn : -1022 ≤ n) :
    AtLeast n (Float.Model.pack f).unpack := by
  change AtLeast n (unpack Format.binary64 (UInt64.ofBitVec (pack Format.binary64 f)).toBitVec)
  rw [UInt64.toBitVec_ofBitVec]
  cases h with
  | infinity =>
    rw [unpack_pack_infinity]
    exact .infinity
  | finite hm hlow hhigh he =>
    rw [unpack_pack_normal _ hm hlow hhigh (by omega)]
    split
    · exact .finite hm hlow hhigh he
    · exact .infinity

/-! ### Whole numbers -/

theorem log2_mul_two_pow (hm : m ≠ 0) (n : ℕ) : (m * 2 ^ n).log2 = m.log2 + n := by
  have hlow := Nat.log2_self_le hm
  have hhigh := Nat.lt_log2_self (n := m)
  apply (Nat.log2_eq_iff (by positivity)).mpr
  rw [Nat.pow_add, show m.log2 + n + 1 = m.log2 + 1 + n by omega, Nat.pow_add]
  exact ⟨Nat.mul_le_mul_right _ hlow, (Nat.mul_lt_mul_right (Nat.two_pow_pos n)).mpr hhigh⟩

theorem AtLeast.mul_one {n : ℤ} (h : AtLeast n x.toModel.unpack) (hn : -1022 ≤ n) :
    AtLeast n (x * Float.ofBits 0x3FF0000000000000).toModel.unpack := by
  have hone : (Float.ofBits 0x3FF0000000000000).toModel.unpack =
      .finite .positive (2 ^ 52) (-52) (by decide) := by rfl
  change AtLeast n (Float.Model.pack (UnpackedFloat.mul Format.binary64 x.toModel.unpack _)).unpack
  rw [hone]
  apply AtLeast.unpack_pack ?_ hn
  generalize x.toModel.unpack = f at h
  cases h with
  | infinity => exact .infinity
  | @finite m e hm hlow hhigh he =>
    have hlog : m.log2 = 52 := (Nat.log2_eq_iff (by omega)).mpr ⟨hlow, hhigh⟩
    have hlong := log2_mul_two_pow hm.ne' 52
    have := atLeast_round (m := m * 2 ^ 52) (e := e + -52) (by omega) (by omega) .exact
    exact this.mono (by omega)

theorem atLeast_ofNat (hm : m ≠ 0) : AtLeast m.log2 (UnpackedFloat.ofNat Format.binary64 m) := by
  have htarget := targetExponent_eq (m := m) (e := 0) (by omega)
  rw [UnpackedFloat.ofNat, UnpackedFloat.ofInt, UnpackedFloat.normalize,
    Int.compare_eq_gt.mpr (by omega)]
  dsimp only
  rw [Int.toNat_natCast, UnpackedFloat.round, htarget, decreaseExponent]
  dsimp only
  rw [Nat.shiftLeft_eq]
  generalize hn : (0 - ((m.log2 : ℤ) + 0 - 52)).toNat = n
  have hlong := log2_mul_two_pow hm n
  have hlow : 2 ^ 52 ≤ m * 2 ^ n := by
    apply (Nat.le_log2 (by positivity)).mp
    omega
  exact (atLeast_round hlow (by omega) .exact).mono (by omega)

theorem ofScientific_natCast (hm : m ≠ 0) :
    UnpackedFloat.ofScientific Format.binary64 m (Int.ofNat 0) =
      roundWithAccuracy Format.binary64 .positive (m * 2 ^ 53) (-53) .exact := by
  rw [UnpackedFloat.ofScientific, dif_neg hm, if_neg (by decide), if_neg (by simp),
    if_pos (by decide)]
  simp only [UnpackedFloat.mul, Nat.shiftLeft_eq]
  change roundWithAccuracy _ .positive (m * 2 ^ 53 * 1) (-53) .exact = _
  rw [Nat.mul_one]

theorem atLeast_natCast (hm : m ≠ 0) : AtLeast m.log2 (m : Float).toModel.unpack := by
  change AtLeast m.log2 (Float.ofScientific m false 0).toModel.unpack
  rw [Float.ofScientific]
  split
  · next hsmall =>
    apply AtLeast.mul_one ?_ (by omega)
    apply AtLeast.unpack_pack ?_ (by omega)
    have hexact : m.toUInt64.toNat = m := by
      rw [Nat.toUInt64_eq, UInt64.toNat_ofNat']
      omega
    rw [UnpackedFloat.ofUInt64, hexact]
    exact atLeast_ofNat hm
  · next hlarge =>
    have hlong := log2_mul_two_pow hm 53
    apply AtLeast.unpack_pack ?_ (by omega)
    rw [if_neg (by decide), ofScientific_natCast hm]
    exact (atLeast_round (by omega) (by omega) .exact).mono (by omega)

/-! ### Quotients -/

variable {n : ℤ}

theorem divCore_normal {m' : ℕ} {e' : ℤ} (hm : m.log2 = 52) (hm' : m'.log2 = 52)
    (he : -1021 ≤ e - e') :
    divCore Format.binary64 m e m' e' =
      (m * 2 ^ 53 / m', e - e' - 53, accuracyOfFraction (m * 2 ^ 53 % m') m') := by
  have htarget : min (e - e') (Format.binary64.targetExponent
      (totalExponent m e - totalExponent m' e')) = e - e' - 53 := by
    change min (e - e') (max ((m.log2 : ℤ) + 1 + e - (m'.log2 + 1 + e') - 53) (-1074)) = _
    omega
  have hshift : (e - e' - (e - e' - 53)).toNat = 53 := by omega
  rw [divCore, htarget, hshift, Nat.shiftLeft_eq]

/-- A positive number divided by itself is one, unless it exceeds all doubles. -/
theorem div_self_eq (h : AtLeast n x.toModel.unpack) :
    x / x = 1.0 ∨ x / x = Float.ofModel (Float.Model.pack .notANumber) := by
  change Float.ofModel (Float.Model.pack (UnpackedFloat.div Format.binary64 x.toModel.unpack
    x.toModel.unpack)) = _ ∨ Float.ofModel (Float.Model.pack (UnpackedFloat.div Format.binary64
    x.toModel.unpack x.toModel.unpack)) = _
  generalize x.toModel.unpack = f at h
  cases h with
  | infinity => exact .inr rfl
  | @finite m e hm hlow hhigh he =>
    have hlog : m.log2 = 52 := (Nat.log2_eq_iff hm.ne').mpr ⟨hlow, hhigh⟩
    left
    rw [UnpackedFloat.div, divCore_normal hlog hlog (by omega)]
    dsimp only
    rw [Nat.mul_div_cancel_left _ hm, Nat.mul_mod_right, sub_self]
    rfl

theorem zero_div_eq (h : AtLeast n x.toModel.unpack) : 0.0 / x = 0.0 := by
  change Float.ofModel (Float.Model.pack (UnpackedFloat.div Format.binary64
    (0.0 : Float).toModel.unpack x.toModel.unpack)) = _
  generalize x.toModel.unpack = f at h
  cases h with
  | infinity => rfl
  | finite hm hlow hhigh he => rfl

theorem one_lt_of_atLeast (h : AtLeast 1 x.toModel.unpack) : 1.0 < x := by
  have hone : (1.0 : Float).toModel.unpack = .finite .positive (2 ^ 52) (-52) (by decide) := by rfl
  change decide (((1.0 : Float).toModel.unpack.compare x.toModel.unpack == some .lt) = true) = true
  rw [hone]
  generalize x.toModel.unpack = f at h
  cases h with
  | infinity => rfl
  | @finite m e hm hlow hhigh he =>
    have hlt : compare (-52) e = .lt := Int.compare_eq_lt.mpr (by omega)
    simp [UnpackedFloat.compare, hlt]

theorem atLeast_div_ten (h : AtLeast n x.toModel.unpack) (hn : -1018 ≤ n) :
    AtLeast (n - 4) (x / 10.0).toModel.unpack := by
  have hten : (10.0 : Float).toModel.unpack = .finite .positive (5 * 2 ^ 50) (-49) (by decide) := by
    rfl
  change AtLeast _ (Float.Model.pack (UnpackedFloat.div Format.binary64 x.toModel.unpack
    (10.0 : Float).toModel.unpack)).unpack
  rw [hten]
  apply AtLeast.unpack_pack ?_ (by omega)
  generalize x.toModel.unpack = f at h
  cases h with
  | infinity => exact .infinity
  | @finite m e hm hlow hhigh he =>
    have hlog : m.log2 = 52 := (Nat.log2_eq_iff hm.ne').mpr ⟨hlow, hhigh⟩
    have hquotient : 2 ^ 52 ≤ m * 2 ^ 53 / (5 * 2 ^ 50) := by omega
    have hlong : 52 ≤ (m * 2 ^ 53 / (5 * 2 ^ 50)).log2 := (Nat.le_log2 (by omega)).mpr hquotient
    rw [UnpackedFloat.div, divCore_normal hlog (by decide) (by omega)]
    exact (atLeast_round hquotient (by omega) _).mono (by omega)

/-- From eleven files on a sample carries full weight. -/
theorem Confidence.sampleShare_full {size : ℕ} (h : 11 ≤ size) :
    (Confidence.sampleShare size : Float) = Confidence.one := by
  have hlt : (Confidence.one : Float) < (size : Float) / (Confidence.optimalSample : Float) := by
    by_cases hsmall : size < 32
    · have hall : ∀ k : ℕ, k < 32 → 11 ≤ k →
          (Confidence.one : Float) < (k : Float) / (Confidence.optimalSample : Float) := by
        decide +kernel
      exact hall size hsmall h
    · have hlog : 5 ≤ size.log2 := (Nat.le_log2 (by omega)).mpr (by omega)
      have hsize : AtLeast 5 (size : Float).toModel.unpack :=
        (atLeast_natCast (by omega)).mono (by omega)
      exact one_lt_of_atLeast (atLeast_div_ten hsize (by omega))
  rw [Confidence.sampleShare, if_neg (by omega), Confidence.least, if_pos hlt]

end JavaProfile
