import JavaProfile.Proofs.Number.Nearest

/-!
The order of doubles. Doubles that are zero or more are ordered as the numbers that they stand for,
and rounding to decimal places keeps their order.
-/

namespace JavaProfile.Binary64

open Float.Model Float.Model.UnpackedFloat

variable {x y : Float} {m m' : ℕ} {e e' : ℤ}

/-! ### What is compared -/

def signOf (negative : Bool) : Sign :=
  if negative then .negative else .positive

/-- How the parts of a double are told when it is compared. -/
inductive Value.Unpacks : Value → UnpackedFloat → Prop
  | zero (negative : Bool) (e : ℤ) : Unpacks (.finite negative 0 e) (.zero (signOf negative))
  | finite (negative : Bool) {m : ℕ} (e : ℤ) (hm : 0 < m) :
    Unpacks (.finite negative m e) (.finite (signOf negative) m e hm)
  | infinite (negative : Bool) : Unpacks (.infinite negative) (.infinity (signOf negative))
  | notANumber : Unpacks .notANumber .notANumber

theorem signOf_toNat (b : BitVec 1) : Sign.ofBitVec b = signOf (decide (b.toNat = 1)) := by
  rcases BitVec.eq_zero_or_eq_one b with rfl | rfl <;> rfl

theorem toNat_leading (b : BitVec 52) : (1#1 ++ b).toNat = 2 ^ 52 + b.toNat := by
  rw [BitVec.toNat_append, ← Nat.shiftLeft_add_eq_or_of_lt b.isLt]
  rfl

theorem unpacks (x : Float) : (decode x).Unpacks x.toModel.unpack := by
  change (decode x).Unpacks (UnpackedFloat.unpack Format.binary64 x.toBits.toBitVec)
  have hmantissa := toNat_unpackMantissa x.toBits.toBitVec
  have hexponent := toNat_unpackExponent x.toBits.toBitVec
  have hsign := toNat_unpackSign x.toBits.toBitVec
  have hbias : ((Format.binary64.exponentBias : ℤ) + (52 : ℕ)) = 1075 := rfl
  simp only [UInt64.toNat_toBitVec] at hmantissa hexponent hsign
  rw [UnpackedFloat.unpack]
  simp only [decode, twoTo_eq, signOf_toNat, ← hsign, ← hexponent, ← hmantissa, hbias]
  have hlast : @unpackExponent Format.binary64 x.toBits.toBitVec = -1#11 ↔ _ = 2047 :=
    BitVec.toNat_inj.symm
  have hfirst : @unpackExponent Format.binary64 x.toBits.toBitVec = 0#11 ↔ _ = 0 :=
    BitVec.toNat_inj.symm
  have hnone : @unpackMantissa Format.binary64 x.toBits.toBitVec = 0#52 ↔ _ = 0 :=
    BitVec.toNat_inj.symm
  simp only [hlast, hfirst]
  split
  · simp only [hnone]
    split
    · exact .infinite _
    · exact .notANumber
  · split
    · next hsubnormal =>
      split
      · next hzero =>
        rw [hnone.mp hzero]
        exact .zero _ _
      · simp only [hsubnormal]
        exact .finite _ _ _
    · simp only [toNat_leading]
      exact .finite _ _ _

/-! ### Doubles without a sign -/

/-- Zero or a positive double, and not infinity. -/
def Unsigned (x : Float) : Prop :=
  ∃ m e, decode x = .finite false m e

def magnitude (x : Float) : ℚ :=
  match decode x with
  | .finite false m e => m * 2 ^ e
  | _ => 0

theorem magnitude_eq (h : decode x = .finite false m e) : magnitude x = m * 2 ^ e := by
  rw [magnitude, h]

theorem magnitude_nonneg (x : Float) : 0 ≤ magnitude x := by
  rw [magnitude]
  split
  · positivity
  · exact le_rfl

theorem canonical_zero : Canonical 0 (-1074) :=
  ⟨by norm_num, le_rfl, by norm_num, fun _ => rfl⟩

theorem Canonical.lt_of_exponent_lt (h : Canonical m e) (h' : Canonical m' e') (hlt : e < e') :
    (m : ℚ) * 2 ^ e < m' * 2 ^ e' := by
  have hm : (m : ℚ) < 2 ^ 53 := by exact_mod_cast h.mantissa_lt
  have hm' : (2 : ℚ) ^ 52 ≤ m' := by
    have hnormal : 2 ^ 52 ≤ m' := by
      by_contra hsmall
      have := h'.subnormal (by omega)
      have := h.least
      omega
    exact_mod_cast hnormal
  have hpow : (2 : ℚ) ^ (e + 53) ≤ 2 ^ (e' + 52) := zpow_le_zpow_right₀ (by norm_num) (by omega)
  rw [zpow_add₀ (by norm_num), zpow_add₀ (by norm_num)] at hpow
  calc (m : ℚ) * 2 ^ e < 2 ^ 53 * 2 ^ e := by gcongr
    _ = 2 ^ e * 2 ^ (53 : ℤ) := by rw [mul_comm]; norm_cast
    _ ≤ 2 ^ e' * 2 ^ (52 : ℤ) := hpow
    _ = 2 ^ 52 * 2 ^ e' := by rw [mul_comm]; norm_cast
    _ ≤ m' * 2 ^ e' := by gcongr

/-- Exponents are compared before mantissas, as numbers are in canonical form. -/
theorem Canonical.compare_eq (h : Canonical m e) (h' : Canonical m' e') :
    (compare e e').then (compare m m') = compare ((m : ℚ) * 2 ^ e) (m' * 2 ^ e') := by
  rcases lt_trichotomy e e' with hlt | rfl | hgt
  · rw [compare_lt_iff_lt.mpr hlt, compare_lt_iff_lt.mpr (h.lt_of_exponent_lt h' hlt)]
    rfl
  · have hpos : (0 : ℚ) < 2 ^ e := by positivity
    rw [compare_eq_iff_eq.mpr rfl, Ordering.eq_then]
    rcases lt_trichotomy m m' with hlt | rfl | hgt
    · rw [compare_lt_iff_lt.mpr hlt, compare_lt_iff_lt.mpr]
      exact mul_lt_mul_of_pos_right (by exact_mod_cast hlt) hpos
    · rw [compare_eq_iff_eq.mpr rfl, compare_eq_iff_eq.mpr rfl]
    · rw [compare_gt_iff_gt.mpr hgt, compare_gt_iff_gt.mpr]
      exact mul_lt_mul_of_pos_right (by exact_mod_cast hgt) hpos
  · rw [compare_gt_iff_gt.mpr hgt, compare_gt_iff_gt.mpr (h'.lt_of_exponent_lt h hgt)]
    rfl

theorem compare_unpack (hx : Unsigned x) (hy : Unsigned y) :
    x.toModel.unpack.compare y.toModel.unpack = some (compare (magnitude x) (magnitude y)) := by
  obtain ⟨m, e, hm⟩ := hx
  obtain ⟨m', e', hm'⟩ := hy
  rw [magnitude_eq hm, magnitude_eq hm']
  have hc := (decode_finite hm).1
  have hc' := (decode_finite hm').1
  have hunpacks := unpacks x
  have hunpacks' := unpacks y
  rw [hm] at hunpacks
  rw [hm'] at hunpacks'
  generalize x.toModel.unpack = f at hunpacks
  generalize y.toModel.unpack = f' at hunpacks'
  -- A zero is unpacked apart from the finite values, whatever its exponent.
  cases hunpacks with
  | zero =>
    rw [Nat.cast_zero, zero_mul]
    cases hunpacks' with
    | zero => simp [UnpackedFloat.compare]
    | finite _ _ hpos' =>
      have hpos : (0 : ℚ) < m' * 2 ^ e' := mul_pos (by exact_mod_cast hpos') (by positivity)
      rw [compare_lt_iff_lt.mpr hpos]
      rfl
  | finite _ _ hpos =>
    cases hunpacks' with
    | zero =>
      have hpos : (0 : ℚ) < m * 2 ^ e := mul_pos (by exact_mod_cast hpos) (by positivity)
      rw [Nat.cast_zero, zero_mul, compare_gt_iff_gt.mpr hpos]
      rfl
    | finite _ _ hpos' => exact congrArg some (hc.compare_eq hc')

theorem lt_iff_magnitude (hx : Unsigned x) (hy : Unsigned y) :
    x < y ↔ magnitude x < magnitude y := by
  change decide ((x.toModel.unpack.compare y.toModel.unpack == some .lt) = true) = true ↔ _
  rw [compare_unpack hx hy, decide_eq_true_eq, beq_iff_eq, Option.some_inj, compare_lt_iff_lt]

theorem le_iff_magnitude (hx : Unsigned x) (hy : Unsigned y) :
    x ≤ y ↔ magnitude x ≤ magnitude y := by
  change decide ((x.toModel.unpack.compare y.toModel.unpack).any (·.isLE) = true) = true ↔ _
  rw [compare_unpack hx hy, decide_eq_true_eq, Option.any_some]
  exact Ordering.isLE_iff_ne_gt.trans compare_le_iff_le

theorem unsigned_zero : Unsigned 0.0 :=
  ⟨0, -1074, by decide +kernel⟩

theorem unsigned_one : Unsigned 1.0 :=
  ⟨2 ^ 52, -52, by decide +kernel⟩

theorem magnitude_zero : magnitude 0.0 = 0 := by
  rw [magnitude_eq (m := 0) (e := -1074) (by decide +kernel), Nat.cast_zero, zero_mul]

theorem magnitude_one : magnitude 1.0 = 1 := by
  rw [magnitude_eq (m := 2 ^ 52) (e := -52) (by decide +kernel)]
  norm_num

theorem unsigned_of_bounds (hpos : 0.0 < x) (hone : x ≤ 1.0) : Unsigned x := by
  have hzero : (0.0 : Float).toModel.unpack = .zero .positive := by rfl
  have hunit : (1.0 : Float).toModel.unpack = .finite .positive (2 ^ 52) (-52) (by decide) := by rfl
  have hlt : ((0.0 : Float).toModel.unpack.compare x.toModel.unpack == some .lt) = true :=
    of_decide_eq_true hpos
  have hle : (x.toModel.unpack.compare (1.0 : Float).toModel.unpack).any (·.isLE) = true :=
    of_decide_eq_true hone
  rw [hzero] at hlt
  rw [hunit] at hle
  have hunpacks := unpacks x
  rw [Unsigned]
  generalize x.toModel.unpack = f at hunpacks hlt hle
  generalize decode x = v at hunpacks
  cases hunpacks with
  | zero => cases hlt
  | notANumber => cases hlt
  | infinite negative =>
    cases negative with
    | true => cases hlt
    | false => cases hle
  | @finite negative m e hm =>
    cases negative with
    | true => cases hlt
    | false => exact ⟨m, e, rfl⟩

theorem unsigned_of_not_le (h : ¬ x ≤ 0.0) :
    Unsigned x ∨ decode x = .infinite false ∨ decode x = .notANumber := by
  have hzero : (0.0 : Float).toModel.unpack = .zero .positive := by rfl
  have hle : ¬ (x.toModel.unpack.compare (0.0 : Float).toModel.unpack).any (·.isLE) = true :=
    fun hle => h (decide_eq_true hle)
  rw [hzero] at hle
  have hunpacks := unpacks x
  rw [Unsigned]
  generalize x.toModel.unpack = f at hunpacks hle
  generalize decode x = v at hunpacks
  cases hunpacks with
  | zero => exact absurd rfl hle
  | notANumber => exact .inr (.inr rfl)
  | infinite negative =>
    cases negative with
    | true => exact absurd rfl hle
    | false => exact .inr (.inl rfl)
  | @finite negative m e hm =>
    cases negative with
    | true => exact absurd rfl hle
    | false => exact .inl ⟨m, e, rfl⟩

/-! ### Rounding -/

theorem roundQuotient_bounds (num den : ℕ) :
    num / den ≤ roundQuotient num den ∧ roundQuotient num den ≤ num / den + 1 := by
  unfold roundQuotient
  dsimp only
  split
  · omega
  · split <;> omega

theorem roundQuotient_zero_iff {num den : ℕ} (hden : 0 < den) :
    roundQuotient num den = 0 ↔ (num / den : ℚ) ≤ 1 / 2 := by
  have hd : (0 : ℚ) < den := by exact_mod_cast hden
  have hhalf : (num / den : ℚ) ≤ 1 / 2 ↔ 2 * num ≤ den := by
    rw [div_le_iff₀ hd, ← Nat.cast_le (α := ℚ)]
    push_cast
    constructor <;> intro h <;> linarith
  have hnear := roundQuotient_near num hden
  rw [hhalf]
  constructor
  · intro hzero
    rw [hzero] at hnear
    omega
  · intro hle
    exact roundQuotient_eq hden (by omega) (by omega) (fun _ => rfl)

theorem roundQuotient_abs (num : ℕ) {den : ℕ} (hden : 0 < den) :
    |(roundQuotient num den : ℚ) - num / den| ≤ 1 / 2 := by
  have hd : (0 : ℚ) < den := by exact_mod_cast hden
  have hvalue : (num / den : ℚ) * den = num := div_mul_cancel₀ _ hd.ne'
  obtain ⟨hbelow, habove⟩ := roundQuotient_near num hden
  qify at hbelow habove
  rw [← hvalue] at hbelow habove
  rw [abs_le]
  constructor <;> apply le_of_mul_le_mul_right _ hd <;> linarith

theorem roundQuotient_mono {num den num' den' : ℕ} (hden : 0 < den) (hden' : 0 < den')
    (h : num * den' ≤ num' * den) : roundQuotient num den ≤ roundQuotient num' den' := by
  have hfloor : num / den ≤ num' / den' := by
    rw [Nat.le_div_iff_mul_le hden']
    apply Nat.le_of_mul_le_mul_right _ hden
    calc num / den * den' * den = num / den * den * den' := by ring
      _ ≤ num * den' := Nat.mul_le_mul_right _ (Nat.div_mul_le_self _ _)
      _ ≤ num' * den := h
  have hbounds := roundQuotient_bounds num den
  have hbounds' := roundQuotient_bounds num' den'
  rcases hfloor.lt_or_eq with hlt | heq
  · omega
  · -- Where the whole parts are equal the remainders decide.
    have hrest : num % den * den' ≤ num' % den' * den := by
      have hsplit := Nat.div_add_mod num den
      have hsplit' := Nat.div_add_mod num' den'
      rw [← hsplit, ← hsplit', heq] at h
      nlinarith
    unfold roundQuotient at hbounds' ⊢
    dsimp only at hbounds' ⊢
    rw [heq] at hbounds ⊢
    split
    · exact hbounds'.1
    · next hup =>
      split
      · exact hbounds'.1
      · next htie =>
        have hup' : ¬ 2 * (num' % den') < den' := by
          intro hdown
          apply hup
          apply Nat.lt_of_mul_lt_mul_right (a := den')
          calc 2 * (num % den) * den' = 2 * (num % den * den') := by ring
            _ ≤ 2 * (num' % den' * den) := Nat.mul_le_mul_left _ hrest
            _ = 2 * (num' % den') * den := by ring
            _ < den' * den := (Nat.mul_lt_mul_right hden).mpr hdown
            _ = den * den' := Nat.mul_comm _ _
        have htie' : ¬ (2 * (num' % den') = den' ∧ num' / den' % 2 = 0) := by
          rintro ⟨hhalf, heven⟩
          apply htie
          refine ⟨le_antisymm ?_ (not_lt.mp hup), heven⟩
          apply Nat.le_of_mul_le_mul_right _ hden'
          calc 2 * (num % den) * den' = 2 * (num % den * den') := by ring
            _ ≤ 2 * (num' % den' * den) := Nat.mul_le_mul_left _ hrest
            _ = 2 * (num' % den') * den := by ring
            _ = den * den' := by rw [hhalf, Nat.mul_comm]
        rw [if_neg hup', if_neg htie']

theorem toBits_ofMagnitudeBits {bits : ℕ} (h : bits < 2047 * 2 ^ 52) :
    (ofMagnitudeBits false bits).toBits.toNat = bits := by
  have hsame : (UInt64.ofNat bits).toNat = bits := by
    rw [UInt64.toNat_ofNat']
    omega
  have hnumber : @isNaNBits Format.binary64 (UInt64.ofNat bits).toBitVec = false := by
    apply decide_eq_false
    rintro ⟨hlast, -⟩
    have hfield := toNat_unpackExponent (UInt64.ofNat bits).toBitVec
    rw [UInt64.toNat_toBitVec, hsame, hlast] at hfield
    change 2047 = _ at hfield
    omega
  change (UInt64.ofBitVec (UnpackedFloat.pack Format.binary64 (UnpackedFloat.unpack Format.binary64
    (UInt64.ofNat bits).toBitVec))).toNat = bits
  rw [pack_unpack, hnumber]
  exact hsame

theorem decode_ofMagnitudeBits (h : Canonical m e) :
    decode (ofMagnitudeBits false (magnitudeBits m e)) = .finite false m e := by
  obtain ⟨hlt, hleast, hgreatest, hsub⟩ := h
  simp only [decode, twoTo_eq]
  by_cases hsmall : m < 2 ^ 52
  · have hbits : magnitudeBits m e = m := if_pos hsmall
    rw [hbits, toBits_ofMagnitudeBits (by omega), if_neg (by omega), if_pos (by omega),
      decide_eq_false (by omega), Nat.mod_eq_of_lt hsmall, hsub hsmall]
  · have hbits : magnitudeBits m e = (e + 1075).toNat * 2 ^ 52 + (m - 2 ^ 52) := if_neg hsmall
    rw [hbits, toBits_ofMagnitudeBits (by omega), if_neg (by omega), if_neg (by omega),
      decide_eq_false (by omega)]
    have hfraction : ((e + 1075).toNat * 2 ^ 52 + (m - 2 ^ 52)) % 2 ^ 52 = m - 2 ^ 52 := by omega
    have hfield : ((e + 1075).toNat * 2 ^ 52 + (m - 2 ^ 52)) / 2 ^ 52 % 2 ^ 11 =
        (e + 1075).toNat := by omega
    rw [hfraction, hfield, Nat.add_sub_cancel' (not_lt.mp hsmall), Int.toNat_of_nonneg (by omega),
      add_sub_cancel_right]

/-! ### Quotients -/

variable {num num' den den' : ℕ}

def mantissaAt (num den : ℕ) (e : ℤ) : ℕ :=
  roundQuotient (num * 2 ^ (-e).toNat) (den * 2 ^ e.toNat)

theorem mantissaAt_eq (num den : ℕ) (e : ℤ) :
    (if e ≥ 0 then roundQuotient num (den * twoTo e.toNat)
      else roundQuotient (num * twoTo (-e).toNat) den) = mantissaAt num den e := by
  rw [mantissaAt, twoTo_eq, twoTo_eq]
  split
  · rw [show (-e).toNat = 0 by omega, pow_zero, mul_one]
  · rw [show e.toNat = 0 by omega, pow_zero, mul_one]

theorem mantissaAt_mono (hden : 0 < den) (hden' : 0 < den') (h : num * den' ≤ num' * den) (e : ℤ) :
    mantissaAt num den e ≤ mantissaAt num' den' e := by
  apply roundQuotient_mono (by positivity) (by positivity)
  calc num * 2 ^ (-e).toNat * (den' * 2 ^ e.toNat)
      = num * den' * (2 ^ (-e).toNat * 2 ^ e.toNat) := by ring
    _ ≤ num' * den * (2 ^ (-e).toNat * 2 ^ e.toNat) := Nat.mul_le_mul_right _ h
    _ = num' * 2 ^ (-e).toNat * (den * 2 ^ e.toNat) := by ring

theorem roundQuotient_one (n : ℕ) : roundQuotient n 1 = n := by
  simp [roundQuotient, Nat.mod_one]

theorem mantissaAt_zero (hden : 0 < den) (e : ℤ) : mantissaAt 0 den e = 0 := by
  simp [mantissaAt, roundQuotient, hden]

theorem mantissaAt_bounds (hnum : 0 < num) (hden : 0 < den) :
    mantissaAt num den (exponentOf num den) ≤ 2 ^ 53 ∧
      (-1074 < exponentOf num den → 2 ^ 52 ≤ mantissaAt num den (exponentOf num den)) := by
  obtain ⟨-, hhigh, hlow⟩ := exponentOf_bounds hnum hden
  generalize exponentOf num den = e at hhigh hlow
  constructor
  · rw [← roundQuotient_one (2 ^ 53)]
    apply roundQuotient_mono (by positivity) one_pos
    rw [mul_one, scaled_le_iff hden]
    rw [zpow_add₀ (by norm_num), mul_comm] at hhigh
    exact_mod_cast hhigh.le
  · intro hnormal
    rw [← roundQuotient_one (2 ^ 52)]
    apply roundQuotient_mono one_pos (by positivity)
    rw [mul_one, le_scaled_iff hden]
    have hlow := hlow hnormal
    rw [zpow_add₀ (by norm_num), mul_comm] at hlow
    exact_mod_cast hlow

theorem exponentOf_le (hnum : 0 < num) (hden : 0 < den) (h : num ≤ den) :
    exponentOf num den ≤ -52 := by
  obtain ⟨-, -, hlow⟩ := exponentOf_bounds hnum hden
  by_contra hlarge
  have hone : (num / den : ℚ) ≤ 1 := div_le_one_of_le₀ (by exact_mod_cast h) (Nat.cast_nonneg _)
  have hpow : (2 : ℚ) ^ (1 : ℤ) ≤ 2 ^ (exponentOf num den + 52) :=
    zpow_le_zpow_right₀ (by norm_num) (by omega)
  have := hlow (by omega)
  norm_num at hpow
  linarith

/-- A mantissa that was rounded up to 54 binary digits is told at the next exponent. -/
theorem magnitudeBits_carry {M : ℕ} {E : ℤ} (hmost : M ≤ 2 ^ 53) (hleast : -1074 ≤ E)
    (hE : E ≤ 970) (hnormal : -1074 < E → 2 ^ 52 ≤ M) :
    ∃ m e, Canonical m e ∧ (m : ℚ) * 2 ^ e = M * 2 ^ E ∧
      (if M < 2 ^ 52 then M else (E + 1075).toNat * 2 ^ 52 + (M - 2 ^ 52)) =
        magnitudeBits m e := by
  rcases hmost.lt_or_eq with hlt | rfl
  · exact ⟨M, E, ⟨hlt, hleast, by omega, by omega⟩, rfl, rfl⟩
  · refine ⟨2 ^ 52, E + 1, ⟨by norm_num, by omega, by omega, by omega⟩, ?_, ?_⟩
    · rw [zpow_add₀ (by norm_num)]
      push_cast
      ring
    · rw [magnitudeBits, if_neg (by norm_num), if_neg (by norm_num)]
      omega

theorem ofRatio_unsigned (hden : 0 < den) (h : num ≤ den) :
    Unsigned (ofRatio false num den) ∧ magnitude (ofRatio false num den) =
      mantissaAt num den (exponentOf num den) * 2 ^ exponentOf num den := by
  rcases Nat.eq_zero_or_pos num with rfl | hnum
  · have hdecode := decode_ofMagnitudeBits canonical_zero
    have hzero : ofRatio false 0 den = ofMagnitudeBits false (magnitudeBits 0 (-1074)) := if_pos rfl
    rw [hzero]
    refine ⟨⟨_, _, hdecode⟩, ?_⟩
    rw [magnitude_eq hdecode, mantissaAt_zero hden, Nat.cast_zero, zero_mul, zero_mul]
  · obtain ⟨hleast, -, -⟩ := exponentOf_bounds hnum hden
    obtain ⟨hmost, hnormal⟩ := mantissaAt_bounds hnum hden
    have hE := exponentOf_le hnum hden h
    obtain ⟨m, e, hc, hvalue, hbits⟩ := magnitudeBits_carry hmost hleast (by omega) hnormal
    have hdecode := decode_ofMagnitudeBits hc
    have heq : ofRatio false num den = ofMagnitudeBits false (magnitudeBits m e) := by
      rw [ofRatio, if_neg hnum.ne', ← hbits]
      dsimp only
      rw [mantissaAt_eq, twoTo_eq]
      split
      · rfl
      · rw [min_eq_left (by omega)]
    rw [heq]
    exact ⟨⟨m, e, hdecode⟩, (magnitude_eq hdecode).trans hvalue⟩

theorem magnitude_ofRatio_mono (hden : 0 < den) (hden' : 0 < den') (hone : num ≤ den)
    (hone' : num' ≤ den') (h : num * den' ≤ num' * den) :
    magnitude (ofRatio false num den) ≤ magnitude (ofRatio false num' den') := by
  obtain ⟨-, heq⟩ := ofRatio_unsigned hden hone
  obtain ⟨-, heq'⟩ := ofRatio_unsigned hden' hone'
  rcases Nat.eq_zero_or_pos num with rfl | hnum
  · rw [heq, mantissaAt_zero hden, Nat.cast_zero, zero_mul]
    exact magnitude_nonneg _
  have hnum' : 0 < num' := by
    apply Nat.pos_of_mul_pos_right
    exact (Nat.mul_pos hnum hden').trans_le h
  have hquotient : (num / den : ℚ) ≤ num' / den' := by
    rw [div_le_div_iff₀ (by exact_mod_cast hden) (by exact_mod_cast hden')]
    exact_mod_cast h
  obtain ⟨hleast', hhigh', -⟩ := exponentOf_bounds hnum' hden'
  obtain ⟨hleast, -, hlow⟩ := exponentOf_bounds hnum hden
  obtain ⟨hmost, -⟩ := mantissaAt_bounds hnum hden
  obtain ⟨-, hnormal'⟩ := mantissaAt_bounds hnum' hden'
  have hmono := mantissaAt_mono hden hden' h
  rw [heq, heq']
  generalize exponentOf num den = E at *
  generalize exponentOf num' den' = E' at *
  rcases lt_trichotomy E E' with hlt | rfl | hgt
  · have hM : (mantissaAt num den E : ℚ) ≤ 2 ^ 53 := by exact_mod_cast hmost
    have hM' : (2 ^ 52 : ℚ) ≤ mantissaAt num' den' E' := by exact_mod_cast hnormal' (by omega)
    have hpow : (2 : ℚ) ^ (E + 1) ≤ 2 ^ E' := zpow_le_zpow_right₀ (by norm_num) (by omega)
    rw [zpow_add_one₀ (by norm_num)] at hpow
    calc (mantissaAt num den E : ℚ) * 2 ^ E ≤ 2 ^ 53 * 2 ^ E := by gcongr
      _ = 2 ^ 52 * (2 ^ E * 2) := by ring
      _ ≤ 2 ^ 52 * 2 ^ E' := by gcongr
      _ ≤ mantissaAt num' den' E' * 2 ^ E' := by gcongr
  · have hM : (mantissaAt num den E : ℚ) ≤ mantissaAt num' den' E := by exact_mod_cast hmono E
    gcongr
  · -- The greater exponent is that of the greater quotient.
    have hpow : (2 : ℚ) ^ (E' + 53) ≤ 2 ^ (E + 52) := zpow_le_zpow_right₀ (by norm_num) (by omega)
    have := hlow (by omega)
    linarith

/-! ### Decimal places -/

theorem ratio_spec (m : ℕ) (e : ℤ) :
    0 < (ratio m e).2 ∧ ((ratio m e).1 / (ratio m e).2 : ℚ) = m * 2 ^ e := by
  rw [ratio]
  split
  · next he =>
    obtain ⟨n, rfl⟩ := Int.eq_ofNat_of_zero_le he
    simp [twoTo_eq]
  · next he =>
    obtain ⟨n, rfl⟩ : ∃ n : ℕ, e = -n := ⟨(-e).toNat, by omega⟩
    simp [twoTo_eq, div_eq_mul_inv]

theorem roundPlaces_mono (places : ℕ) (hx : Unsigned x) (hy : Unsigned y) (hone : magnitude y ≤ 1)
    (h : magnitude x ≤ magnitude y) :
    Unsigned (roundPlaces places x) ∧
      magnitude (roundPlaces places x) ≤ magnitude (roundPlaces places y) := by
  obtain ⟨m, e, hm⟩ := hx
  obtain ⟨m', e', hm'⟩ := hy
  rw [magnitude_eq hm'] at hone
  rw [magnitude_eq hm, magnitude_eq hm'] at h
  obtain ⟨hden, hratio⟩ := ratio_spec m e
  obtain ⟨hden', hratio'⟩ := ratio_spec m' e'
  rw [← hratio'] at hone
  rw [← hratio, ← hratio'] at h
  simp only [roundPlaces, hm, hm', tenTo_eq]
  generalize ratio m e = q at *
  generalize ratio m' e' = q' at *
  have hd : (0 : ℚ) < q.2 := by exact_mod_cast hden
  have hd' : (0 : ℚ) < q'.2 := by exact_mod_cast hden'
  have hten : 0 < 10 ^ places := by positivity
  have hmono : roundQuotient (q.1 * 10 ^ places) q.2 ≤ roundQuotient (q'.1 * 10 ^ places) q'.2 := by
    apply roundQuotient_mono hden hden'
    rw [div_le_div_iff₀ hd hd'] at h
    calc q.1 * 10 ^ places * q'.2 = q.1 * q'.2 * 10 ^ places := by ring
      _ ≤ q'.1 * q.2 * 10 ^ places := Nat.mul_le_mul_right _ (by exact_mod_cast h)
      _ = q'.1 * 10 ^ places * q.2 := by ring
  -- Up to one the quotients are at most `10 ^ places`, as the lemmas on `ofRatio` ask.
  have hmost : roundQuotient (q'.1 * 10 ^ places) q'.2 ≤ 10 ^ places := by
    rw [div_le_one hd'] at hone
    calc roundQuotient (q'.1 * 10 ^ places) q'.2 ≤ roundQuotient (10 ^ places) 1 := by
          apply roundQuotient_mono hden' one_pos
          rw [mul_one, Nat.mul_comm]
          exact Nat.mul_le_mul_left _ (by exact_mod_cast hone)
      _ = 10 ^ places := roundQuotient_one _
  refine ⟨(ofRatio_unsigned hten (hmono.trans hmost)).1, ?_⟩
  exact magnitude_ofRatio_mono hten hten (hmono.trans hmost) hmost (Nat.mul_le_mul_right _ hmono)

theorem roundPlaces_le (places : ℕ) (hx : Unsigned x) (hy : Unsigned y) (hone : y ≤ 1.0)
    (h : x ≤ y) : roundPlaces places x ≤ roundPlaces places y := by
  rw [le_iff_magnitude hy unsigned_one, magnitude_one] at hone
  rw [le_iff_magnitude hx hy] at h
  obtain ⟨hrounded, hmono⟩ := roundPlaces_mono places hx hy hone h
  obtain ⟨hrounded', -⟩ := roundPlaces_mono places hy hy hone le_rfl
  exact (le_iff_magnitude hrounded hrounded').mpr hmono

end JavaProfile.Binary64
