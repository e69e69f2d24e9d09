import JavaProfile.Proofs.Number.Count
import JavaProfile.Proofs.Number.Order

/-!
Differences and products of doubles. Two doubles of one exponent have an exact difference; a product
misses the exact one by a unit in its last binary digit or less.
-/

namespace JavaProfile.Binary64

open Float.Model Float.Model.UnpackedFloat

variable {x y : Float} {m m' M : ℕ} {e e' t : ℤ} {f g : UnpackedFloat} {v : Value} {q : ℚ}

/-! ### Parts that are packed -/

theorem Value.Unpacks.unique (h : v.Unpacks f) (h' : v.Unpacks g) : f = g := by
  cases h with
  | zero => cases h' with
    | zero => rfl
    | finite _ _ hpos => exact absurd hpos (lt_irrefl 0)
  | finite _ _ hpos => cases h' with
    | zero => exact absurd hpos (lt_irrefl 0)
    | finite => rfl
  | infinite => cases h'; rfl
  | notANumber => cases h'; rfl

/-- Parts of a double without a sign that stands for the number `q`. -/
def Parts (f : UnpackedFloat) (q : ℚ) : Prop :=
  ∃ m e, Canonical m e ∧ (Value.finite false m e).Unpacks f ∧ (m : ℚ) * 2 ^ e = q

theorem parts_zero : Parts (.zero .positive) 0 :=
  ⟨0, -1074, canonical_zero, .zero _ _, by simp⟩

theorem parts_finite (hm : 0 < m) (hc : Canonical m e) :
    Parts (.finite .positive m e hm) (m * 2 ^ e) :=
  ⟨m, e, hc, .finite _ _ hm, rfl⟩

theorem Parts.magnitude_pack (h : Parts f q) :
    Unsigned (Float.ofModel (Float.Model.pack f)) ∧
      magnitude (Float.ofModel (Float.Model.pack f)) = q := by
  obtain ⟨m, e, hc, hunpacks, hvalue⟩ := h
  have hdecode := decode_ofMagnitudeBits hc
  have hunpacks' := unpacks (ofMagnitudeBits false (magnitudeBits m e))
  rw [hdecode] at hunpacks'
  have hsame : Float.ofModel (Float.Model.pack f) = ofMagnitudeBits false (magnitudeBits m e) := by
    rw [hunpacks.unique hunpacks']
    exact Float.ofBits_toBits _
  rw [hsame]
  exact ⟨⟨m, e, hdecode⟩, (magnitude_eq hdecode).trans hvalue⟩

/-! ### Rounding to 53 binary digits -/

/-- The least exponent at which a number has no more than 53 binary digits. -/
def exponentFor (m : ℕ) (e : ℤ) : ℤ :=
  max (m.log2 + e - 52) (-1074)

theorem targetExponent_max (m : ℕ) (e : ℤ) :
    Format.binary64.targetExponent (totalExponent m e) = exponentFor m e := by
  change max ((m.log2 : ℤ) + 1 + e - 53) (-1074) = _
  rw [exponentFor]
  omega

theorem exponentFor_canonical (h : Canonical m e) : exponentFor m e ≤ e := by
  obtain ⟨hlt, hleast, -, -⟩ := h
  have hlog : m.log2 ≤ 52 := by
    rcases Nat.eq_zero_or_pos m with rfl | hm
    · decide
    · exact Nat.lt_succ_iff.mp ((Nat.log2_lt hm.ne').mpr hlt)
  rw [exponentFor]
  omega

theorem shift_exact (h : exponentFor m e ≤ e) :
    shiftToTargetExponent Format.binary64 m e .exact = (⟨m, false, false⟩, e) := by
  have hshift : (exponentFor m e - e).toNat = 0 := by omega
  rw [shiftToTargetExponent, targetExponent_max]
  dsimp only [shiftToExponent]
  rw [hshift]
  exact congrArg _ (add_zero e)

theorem roundWithAccuracy_exact (hm : 0 < m) (h : exponentFor m e ≤ e) :
    roundWithAccuracy Format.binary64 .positive m e .exact = .finite .positive m e hm := by
  have hrounded : (⟨m, false, false⟩ : ExtendedMantissa).roundedMantissa = m := rfl
  rw [roundWithAccuracy, shift_exact h]
  dsimp only
  rw [hrounded, shift_exact h]
  exact dif_neg hm.ne'

/-- A mantissa that was rounded up to 54 binary digits is told at the next exponent. -/
theorem shift_carry (hmost : M ≤ 2 ^ 53) (hleast : -1074 ≤ t) (hgreatest : t ≤ 970)
    (hnormal : -1074 < t → 2 ^ 52 ≤ M) :
    let s := shiftToTargetExponent Format.binary64 M t .exact
    Canonical s.1.mantissa s.2 ∧ (s.1.mantissa : ℚ) * 2 ^ s.2 = M * 2 ^ t := by
  rcases hmost.lt_or_eq with hlt | rfl
  · have hc : Canonical M t := ⟨hlt, hleast, by omega, by omega⟩
    rw [shift_exact (exponentFor_canonical hc)]
    exact ⟨hc, rfl⟩
  · have htarget : exponentFor (2 ^ 53) t = t + 1 := by
      rw [exponentFor, Nat.log2_two_pow]
      omega
    have hshift : (t + 1 - t).toNat = 1 := by omega
    rw [shiftToTargetExponent, targetExponent_max, htarget]
    dsimp only [shiftToExponent]
    rw [mantissa_shift, mantissa_ofMantissaAndAccuracy, hshift]
    refine ⟨⟨by norm_num, by omega, by omega, by norm_num⟩, ?_⟩
    rw [Nat.cast_one, zpow_add_one₀ (by norm_num)]
    norm_num
    ring

theorem div_two_pow_lt {k : ℕ} (h : m.log2 ≤ k + 52) : m / 2 ^ k < 2 ^ 53 := by
  rw [Nat.div_lt_iff_lt_mul (Nat.two_pow_pos k), ← Nat.pow_add]
  exact Nat.lt_log2_self.trans_le (Nat.pow_le_pow_right (by norm_num) (by omega))

theorem le_div_two_pow {k : ℕ} (hm : m ≠ 0) (h : k + 52 ≤ m.log2) : 2 ^ 52 ≤ m / 2 ^ k := by
  rw [Nat.le_div_iff_mul_le (Nat.two_pow_pos k), ← Nat.pow_add]
  exact (Nat.pow_le_pow_right (by norm_num) (by omega)).trans (Nat.log2_self_le hm)

theorem rounded_near {Q k : ℕ} {e : ℤ} (hlow : m / 2 ^ k ≤ Q) (hhigh : Q ≤ m / 2 ^ k + 1) :
    |(Q : ℚ) * 2 ^ (e + k) - m * 2 ^ e| ≤ 2 ^ (e + k) := by
  have hpow : (2 : ℚ) ^ (e + k) = 2 ^ k * 2 ^ e := by
    rw [zpow_add₀ (by norm_num), mul_comm, zpow_natCast]
  have hpos : (0 : ℚ) < 2 ^ e := by positivity
  have hsplit := Nat.div_add_mod m (2 ^ k)
  have hrest := Nat.mod_lt m (Nat.two_pow_pos k)
  have hbelow : Q * 2 ^ k ≤ m + 2 ^ k :=
    calc Q * 2 ^ k ≤ (m / 2 ^ k + 1) * 2 ^ k := Nat.mul_le_mul_right _ hhigh
      _ = 2 ^ k * (m / 2 ^ k) + 2 ^ k := by ring
      _ ≤ m + 2 ^ k := by omega
  have habove : m ≤ Q * 2 ^ k + 2 ^ k :=
    calc m ≤ m / 2 ^ k * 2 ^ k + 2 ^ k := by rw [Nat.mul_comm]; omega
      _ ≤ Q * 2 ^ k + 2 ^ k := by gcongr
  have hbelow' : (Q : ℚ) * 2 ^ k ≤ m + 2 ^ k := by exact_mod_cast hbelow
  have habove' : (m : ℚ) ≤ Q * 2 ^ k + 2 ^ k := by exact_mod_cast habove
  rw [hpow, abs_le]
  constructor <;> nlinarith

theorem roundWithAccuracy_near (hm : m ≠ 0) (he : e ≤ exponentFor m e)
    (hgreatest : exponentFor m e ≤ 970) :
    ∃ q, Parts (roundWithAccuracy Format.binary64 .positive m e .exact) q ∧
      |q - m * 2 ^ e| ≤ 2 ^ exponentFor m e := by
  have hshift : (shiftToTargetExponent Format.binary64 m e .exact).1.mantissa =
      m / 2 ^ (exponentFor m e - e).toNat := by
    rw [shiftToTargetExponent, targetExponent_max]
    dsimp only [shiftToExponent]
    rw [mantissa_shift, mantissa_ofMantissaAndAccuracy]
  have hexponent : (shiftToTargetExponent Format.binary64 m e .exact).2 = exponentFor m e := by
    rw [shiftToTargetExponent, targetExponent_max]
    dsimp only [shiftToExponent]
    omega
  obtain ⟨k, hk⟩ : ∃ k : ℕ, exponentFor m e = e + k := ⟨(exponentFor m e - e).toNat, by omega⟩
  rw [hk, add_sub_cancel_left, Int.toNat_natCast] at hshift
  rw [hk] at hexponent hgreatest ⊢
  have hlog : exponentFor m e = max (m.log2 + e - 52) (-1074) := rfl
  have hmost : m / 2 ^ k < 2 ^ 53 := div_two_pow_lt (by omega)
  have hnormal : -1074 < e + k → 2 ^ 52 ≤ m / 2 ^ k :=
    fun _ => le_div_two_pow hm (by omega)
  rw [roundWithAccuracy]
  generalize shiftToTargetExponent Format.binary64 m e .exact = s at hshift hexponent
  obtain ⟨hlow, hhigh⟩ := roundedMantissa_bounds s.1
  rw [hshift] at hlow hhigh
  obtain ⟨hc, hvalue⟩ := shift_carry (M := s.1.roundedMantissa) (t := s.2) (by omega) (by omega)
    (by omega) (by omega)
  dsimp only
  generalize s.1.roundedMantissa = Q at *
  generalize shiftToTargetExponent Format.binary64 Q s.2 .exact = r at *
  refine ⟨Q * 2 ^ s.2, ⟨r.1.mantissa, r.2, hc, ?_, hvalue⟩, ?_⟩
  · split
    · next hzero =>
      rw [hzero]
      exact .zero _ _
    · exact .finite _ _ _
  · rw [hexponent]
    exact rounded_near hlow hhigh

theorem exponentFor_shift (hm : m ≠ 0) (k : ℕ) :
    exponentFor (m * 2 ^ k) (e - k) = exponentFor m e := by
  rw [exponentFor, exponentFor, log2_mul_two_pow hm]
  push_cast
  omega

theorem round_exact (hm : m ≠ 0) (h : Canonical m' e) (hle : m ≤ m') :
    Parts (UnpackedFloat.round Format.binary64 .positive m e) (m * 2 ^ e) := by
  obtain ⟨hlt, hleast, hgreatest, -⟩ := h
  have hlog : m.log2 ≤ 52 := Nat.lt_succ_iff.mp ((Nat.log2_lt hm).mpr (by omega))
  have htarget : exponentFor m e = max (m.log2 + e - 52) (-1074) := rfl
  obtain ⟨k, hk⟩ : ∃ k : ℕ, exponentFor m e = e - k := ⟨(e - exponentFor m e).toNat, by omega⟩
  have hlong := log2_mul_two_pow hm k
  have hpos : m * 2 ^ k ≠ 0 := by positivity
  have hc : Canonical (m * 2 ^ k) (e - k) := by
    refine ⟨(Nat.log2_lt hpos).mp (by omega), by omega, by omega, fun hsmall => ?_⟩
    have := (Nat.log2_lt hpos).mpr hsmall
    omega
  have hvalue : ((m * 2 ^ k : ℕ) : ℚ) * 2 ^ (e - k) = m * 2 ^ e := by
    rw [Nat.cast_mul, Nat.cast_pow, Nat.cast_ofNat, mul_assoc, ← zpow_natCast (2 : ℚ),
      ← zpow_add₀ (by norm_num), add_sub_cancel]
  rw [UnpackedFloat.round, targetExponent_max, hk]
  dsimp only [decreaseExponent]
  rw [sub_sub_cancel, Int.toNat_natCast, Nat.shiftLeft_eq,
    roundWithAccuracy_exact (Nat.pos_of_ne_zero hpos) (by rw [exponentFor_shift hm, hk]), ← hvalue]
  exact parts_finite _ hc

theorem normalize_exact (h : Canonical m' e) (hle : m ≤ m') :
    Parts (UnpackedFloat.normalize Format.binary64 m e .positive) (m * 2 ^ e) := by
  rcases Nat.eq_zero_or_pos m with rfl | hm
  · rw [Nat.cast_zero (R := ℚ), zero_mul]
    exact parts_zero
  · rw [UnpackedFloat.normalize, Int.compare_eq_gt.mpr (by omega)]
    exact round_exact hm.ne' h hle

theorem sub_exact (hx : decode x = .finite false m e) (hy : decode y = .finite false m' e')
    (hle : m' ≤ m) (hsame : 0 < m' → e' = e) :
    Unsigned (x - y) ∧ magnitude (x - y) = magnitude x - magnitude y := by
  suffices h : Parts (UnpackedFloat.sub Format.binary64 x.toModel.unpack y.toModel.unpack)
      (m * 2 ^ e - m' * 2 ^ e') by
    rw [magnitude_eq hx, magnitude_eq hy]
    exact h.magnitude_pack
  have hc := (decode_finite hx).1
  have hunpacks := unpacks x
  have hunpacks' := unpacks y
  rw [hx] at hunpacks
  rw [hy] at hunpacks'
  generalize x.toModel.unpack = f at hunpacks
  generalize y.toModel.unpack = g at hunpacks'
  cases hunpacks with
  | zero =>
    cases hunpacks' with
    | zero =>
      rw [Nat.cast_zero, zero_mul, zero_mul, sub_zero]
      exact parts_zero
    | finite _ _ hpos => omega
  | finite _ _ hpos =>
    cases hunpacks' with
    | zero =>
      rw [Nat.cast_zero, zero_mul, sub_zero]
      exact parts_finite hpos hc
    | finite _ _ hpos' =>
      obtain rfl := hsame hpos'
      have hsub : UnpackedFloat.sub Format.binary64 (.finite .positive m e' hpos)
          (.finite .positive m' e' hpos') =
          normalize Format.binary64 ((m : ℤ) - m') e' .positive := by
        simp [UnpackedFloat.sub, decreaseExponent, Sign.apply]
      change Parts (UnpackedFloat.sub Format.binary64 (.finite .positive m e' hpos)
        (.finite .positive m' e' hpos')) _
      rw [hsub, ← Nat.cast_sub hle, ← sub_mul, ← Nat.cast_sub hle]
      exact normalize_exact hc (Nat.sub_le m m')

/-! ### Products -/

theorem two_zpow_exponentFor_le (hm : m ≠ 0) :
    (2 : ℚ) ^ exponentFor m e ≤ m * 2 ^ e / 2 ^ 52 + 2 ^ (-1074 : ℤ) := by
  have hlow : ((2 : ℚ) ^ m.log2) ≤ m := by exact_mod_cast Nat.log2_self_le hm
  rw [exponentFor]
  rcases max_cases ((m.log2 : ℤ) + e - 52) (-1074) with ⟨hmax, -⟩ | ⟨hmax, -⟩
  · have hsplit : (2 : ℚ) ^ ((m.log2 : ℤ) + e - 52) = 2 ^ m.log2 * 2 ^ e / 2 ^ 52 := by
      rw [zpow_sub₀ (by norm_num), zpow_add₀ (by norm_num), zpow_natCast]
      norm_cast
    rw [hmax, hsplit]
    calc (2 : ℚ) ^ m.log2 * 2 ^ e / 2 ^ 52 ≤ (m : ℚ) * 2 ^ e / 2 ^ 52 := by gcongr
      _ ≤ (m : ℚ) * 2 ^ e / 2 ^ 52 + 2 ^ (-1074 : ℤ) := le_add_of_nonneg_right (by positivity)
  · rw [hmax]
    exact le_add_of_nonneg_left (by positivity)

theorem mul_near (hx : decode x = .finite false m e) (hy : decode y = .finite false m' e')
    (hm : 2 ^ 52 ≤ m) (hfit : magnitude x * magnitude y < 2 ^ 1000) :
    Unsigned (x * y) ∧ |magnitude (x * y) - magnitude x * magnitude y| ≤
      magnitude x * magnitude y / 2 ^ 52 + 2 ^ (-1074 : ℤ) := by
  have hproduct : magnitude x * magnitude y = (m * m' : ℕ) * 2 ^ (e + e') := by
    rw [magnitude_eq hx, magnitude_eq hy, zpow_add₀ (by norm_num)]
    push_cast
    ring
  rw [hproduct] at hfit ⊢
  suffices h : ∃ q, Parts (UnpackedFloat.mul Format.binary64 x.toModel.unpack y.toModel.unpack) q ∧
      |q - (m * m' : ℕ) * 2 ^ (e + e')| ≤ (m * m' : ℕ) * 2 ^ (e + e') / 2 ^ 52 + 2 ^ (-1074 : ℤ) by
    obtain ⟨q, hparts, hnear⟩ := h
    have hpack := hparts.magnitude_pack
    exact ⟨hpack.1, by rwa [← hpack.2] at hnear⟩
  have hunpacks := unpacks x
  have hunpacks' := unpacks y
  rw [hx] at hunpacks
  rw [hy] at hunpacks'
  generalize x.toModel.unpack = f at hunpacks
  generalize y.toModel.unpack = g at hunpacks'
  cases hunpacks with
  | zero => omega
  | finite _ _ hpos =>
    cases hunpacks' with
    | zero => exact ⟨0, parts_zero, by simp⟩
    | finite _ _ hpos' =>
      have hne : m * m' ≠ 0 := (Nat.mul_pos hpos hpos').ne'
      have hlow : 52 ≤ (m * m').log2 :=
        (Nat.le_log2 hne).mpr (hm.trans (Nat.le_mul_of_pos_right m hpos'))
      have hhigh : ((m * m').log2 : ℤ) + (e + e') < 1000 := by
        rw [← zpow_lt_zpow_iff_right₀ (one_lt_two (α := ℚ)), zpow_add₀ (by norm_num), zpow_natCast]
        calc (2 : ℚ) ^ (m * m').log2 * 2 ^ (e + e') ≤ (m * m' : ℕ) * 2 ^ (e + e') := by
              gcongr
              exact_mod_cast Nat.log2_self_le hne
          _ < 2 ^ 1000 := hfit
          _ = 2 ^ (1000 : ℤ) := (zpow_natCast 2 1000).symm
      have htarget : exponentFor (m * m') (e + e') =
          max ((m * m').log2 + (e + e') - 52) (-1074) := rfl
      obtain ⟨q, hparts, hnear⟩ := roundWithAccuracy_near (e := e + e') hne (by omega) (by omega)
      exact ⟨q, hparts, hnear.trans (two_zpow_exponentFor_le hne)⟩

/-! ### Whole parts -/

theorem Canonical.le_pred (h : Canonical m e) (h' : Canonical m' e') (hm : 2 ^ 52 < m')
    (hlt : (m : ℚ) * 2 ^ e < m' * 2 ^ e') : (m : ℚ) * 2 ^ e ≤ (m' - 1) * 2 ^ e' := by
  have hpos : (0 : ℚ) < 2 ^ e := by positivity
  have hle : e ≤ e' := by
    by_contra hgt
    have := h'.lt_of_exponent_lt h (by omega)
    linarith
  rcases hle.lt_or_eq with hless | rfl
  · have hmost : (m : ℚ) ≤ 2 ^ 53 := by exact_mod_cast h.mantissa_lt.le
    have hleast : (2 ^ 52 : ℚ) ≤ m' - 1 := by
      have : (2 ^ 52 + 1 : ℚ) ≤ m' := by exact_mod_cast hm
      linarith
    have hpow : (2 : ℚ) ^ (e + 1) ≤ 2 ^ e' := zpow_le_zpow_right₀ one_le_two (by omega)
    rw [zpow_add_one₀ (by norm_num)] at hpow
    calc (m : ℚ) * 2 ^ e ≤ 2 ^ 53 * 2 ^ e := by gcongr
      _ = 2 ^ 52 * (2 ^ e * 2) := by ring
      _ ≤ (m' - 1) * 2 ^ e' := by gcongr
  · have hless := lt_of_mul_lt_mul_right hlt hpos.le
    have : (m : ℚ) + 1 ≤ m' := by exact_mod_cast hless
    gcongr
    linarith

theorem eq_of_magnitude (hx : Unsigned x) (hy : Unsigned y) (h : magnitude x = magnitude y) :
    x = y := by
  obtain ⟨m, e, hm⟩ := hx
  obtain ⟨m', e', hm'⟩ := hy
  obtain ⟨hc, hbits⟩ := decode_finite hm
  obtain ⟨hc', hbits'⟩ := decode_finite hm'
  rw [magnitude_eq hm, magnitude_eq hm'] at h
  have hcompare := hc.compare_eq hc'
  rw [compare_eq_iff_eq.mpr h, Ordering.then_eq_eq, compare_eq_iff_eq, compare_eq_iff_eq]
    at hcompare
  rw [hbits, hbits', hcompare.1, hcompare.2]

theorem near_self (hm : 0 < m) : Near m e (m * 2 ^ e) := by
  have hpos : (0 : ℚ) < 2 ^ (e - 2) := by positivity
  have hquarters : (m : ℚ) * 2 ^ e = (4 * m : ℕ) * 2 ^ (e - 2) := by
    rw [zpow_sub_two]
    push_cast
    ring
  rw [Near, hquarters]
  dsimp only [Shortest.Interval.of]
  refine ⟨.inl (mul_lt_mul_of_pos_right ?_ hpos), .inl (mul_lt_mul_of_pos_right ?_ hpos)⟩
  · split <;> exact_mod_cast (by omega)
  · exact_mod_cast (by omega)

theorem decode_ofInt {n : ℕ} (hc : Canonical m e) (h : (n : ℚ) = m * 2 ^ e) :
    decode (ofInt n) = .finite false m e := by
  have hsign : decide ((n : ℤ) < 0) = false := decide_eq_false (by omega)
  rw [← decode_ofMagnitudeBits hc, ofInt, hsign, Int.natAbs_natCast]
  rcases Nat.eq_zero_or_pos m with rfl | hm
  · rw [Nat.cast_zero, zero_mul, Nat.cast_eq_zero] at h
    subst h
    rfl
  · have hnear : Near m e (n / (1 : ℕ)) := by
      rw [Nat.cast_one, div_one, h]
      exact near_self hm
    rw [ofRatio_near hc hm one_pos hnear]

theorem floor_magnitude (h : decode x = .finite false m e) :
    ⌊magnitude x⌋₊ = (ratio m e).1 / (ratio m e).2 := by
  rw [magnitude_eq h, ← (ratio_spec m e).2, Nat.floor_div_eq_div]

/-- The whole part of a double is a double of the same exponent, unless it is zero. -/
theorem decode_floor (h : decode x = .finite false m e) :
    ∃ m' e', decode (ofInt ⌊magnitude x⌋₊) = .finite false m' e' ∧ m' ≤ m ∧
      (0 < m' → e' = e) ∧ (m' : ℚ) * 2 ^ e' = ⌊magnitude x⌋₊ := by
  have hc := (decode_finite h).1
  rcases Nat.eq_zero_or_pos ⌊magnitude x⌋₊ with hnone | hsome
  · rw [hnone]
    refine ⟨0, -1074, ?_, Nat.zero_le m, fun hpos => absurd hpos (lt_irrefl 0), by simp⟩
    exact decode_ofInt canonical_zero (by simp)
  · rcases lt_or_ge e 0 with he | he
    · obtain ⟨k, rfl⟩ : ∃ k : ℕ, e = -k := ⟨(-e).toNat, by omega⟩
      have hquotient : ⌊magnitude x⌋₊ = m / 2 ^ k := by
        rw [floor_magnitude h, ratio, if_neg (by omega), twoTo_eq, neg_neg, Int.toNat_natCast]
      rw [hquotient] at hsome ⊢
      have hlong : 2 ^ k ≤ m := (Nat.div_pos_iff.mp hsome).2
      have hk : k < 53 := (Nat.pow_lt_pow_iff_right one_lt_two).mp (hlong.trans_lt hc.mantissa_lt)
      have hnormal : 2 ^ 52 ≤ m := by
        by_contra hsmall
        have := hc.subnormal (by omega)
        omega
      have hle : m / 2 ^ k * 2 ^ k ≤ m := Nat.div_mul_le_self m _
      have hkeep : 2 ^ 52 ≤ m / 2 ^ k * 2 ^ k := by
        have hsplit : 2 ^ (52 - k) * 2 ^ k = 2 ^ 52 := by
          rw [← Nat.pow_add, Nat.sub_add_cancel (by omega)]
        rw [← hsplit] at hnormal ⊢
        exact Nat.mul_le_mul_right _ ((Nat.le_div_iff_mul_le (Nat.two_pow_pos k)).mpr hnormal)
      have hwhole : ((m / 2 ^ k : ℕ) : ℚ) = (m / 2 ^ k * 2 ^ k : ℕ) * 2 ^ (-k : ℤ) := by
        rw [Nat.cast_mul, Nat.cast_pow, Nat.cast_ofNat, mul_assoc, ← zpow_natCast (2 : ℚ),
          ← zpow_add₀ (by norm_num), add_neg_cancel, zpow_zero, mul_one]
      refine ⟨m / 2 ^ k * 2 ^ k, -k, decode_ofInt ?_ hwhole, hle, fun _ => rfl, hwhole.symm⟩
      exact ⟨hle.trans_lt hc.mantissa_lt, hc.least, hc.greatest, by omega⟩
    · obtain ⟨n, rfl⟩ := Int.eq_ofNat_of_zero_le he
      have hwhole : (⌊magnitude x⌋₊ : ℚ) = m * 2 ^ (n : ℤ) := by
        have hnatural : (m : ℚ) * 2 ^ (n : ℤ) = (m * 2 ^ n : ℕ) := by
          rw [zpow_natCast]
          norm_cast
        rw [magnitude_eq h, hnatural, Nat.floor_natCast]
      exact ⟨m, n, decode_ofInt hc hwhole, le_rfl, fun _ => rfl, hwhole.symm⟩

theorem sub_floor (hx : Unsigned x) :
    Unsigned (x - ofInt ⌊magnitude x⌋₊) ∧
      magnitude (x - ofInt ⌊magnitude x⌋₊) = magnitude x - ⌊magnitude x⌋₊ := by
  obtain ⟨m, e, hm⟩ := hx
  obtain ⟨m', e', hm', hle, hsame, hwhole⟩ := decode_floor hm
  obtain ⟨hunsigned, hvalue⟩ := sub_exact hm hm' hle hsame
  rw [magnitude_eq hm', hwhole] at hvalue
  exact ⟨hunsigned, hvalue⟩

end JavaProfile.Binary64
