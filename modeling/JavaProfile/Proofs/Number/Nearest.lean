import JavaProfile.Number.Shortest
import Mathlib

/-!
Reading a quotient back as the double it lies next to. `Near m e q` is the set of rationals that
round to `m * 2 ^ e`; the main statement is that `ofRatio` sends all of it to that double.
-/

namespace JavaProfile

theorem twoTo_eq (n : ℕ) : twoTo n = 2 ^ n := by
  simp [twoTo]

theorem tenTo_eq (n : ℕ) : tenTo n = 10 ^ n := by
  simp [tenTo]

theorem zpow_mul_toNat {b : ℚ} (hb : b ≠ 0) (s : ℤ) : b ^ s * b ^ (-s).toNat = b ^ s.toNat := by
  rw [← zpow_natCast, ← zpow_natCast, ← zpow_add₀ hb]
  congr 1
  omega

theorem roundQuotient_eq {num den n : ℕ} (hden : 0 < den)
    (hlow : 2 * (n * den) ≤ 2 * num + den) (hhigh : 2 * num ≤ 2 * (n * den) + den)
    (htie : 2 * (n * den) = 2 * num + den ∨ 2 * num = 2 * (n * den) + den → n % 2 = 0) :
    roundQuotient num den = n := by
  have hsplit := Nat.div_add_mod num den
  have hsmall := Nat.mod_lt num hden
  have hcases : num / den = n ∨ num / den + 1 = n := by
    rcases lt_trichotomy (num / den) n with hlt | heq | hgt
    · right
      by_contra hne
      have hmul : den * (num / den + 2) ≤ den * n := Nat.mul_le_mul_left _ (by omega)
      rw [Nat.mul_add, Nat.mul_comm den n] at hmul
      omega
    · exact .inl heq
    · have hmul : den * (n + 1) ≤ den * (num / den) := Nat.mul_le_mul_left _ (by omega)
      rw [Nat.mul_add, Nat.mul_comm den n] at hmul
      omega
  unfold roundQuotient
  rcases hcases with heq | heq
  · have hval : num = n * den + num % den := by rw [← heq]; linarith
    simp only [heq]
    split
    · rfl
    · split
      · rfl
      · have : 2 * (num % den) = den := by omega
        have := htie (.inr (by omega))
        omega
  · have hval : num + den = n * den + num % den := by rw [← heq]; linarith
    simp only [heq]
    split
    · omega
    · split
      · have := htie (.inl (by omega))
        omega
      · rfl

namespace Binary64

/-- A mantissa and an exponent as `decode` gives them. -/
structure Canonical (m : ℕ) (e : ℤ) : Prop where
  mantissa_lt : m < 2 ^ 53
  least : -1074 ≤ e
  greatest : e ≤ 971
  subnormal : m < 2 ^ 52 → e = -1074

def magnitudeBits (m : ℕ) (e : ℤ) : ℕ :=
  if m < 2 ^ 52 then m else (e + 1075).toNat * 2 ^ 52 + (m - 2 ^ 52)

theorem ofBits_toNat (x : Float) : Float.ofBits (UInt64.ofNat x.toBits.toNat) = x := by
  rw [UInt64.ofNat_toNat, Float.ofBits_toBits]

theorem decode_finite {x : Float} {negative : Bool} {m : ℕ} {e : ℤ}
    (h : decode x = .finite negative m e) :
    Canonical m e ∧ x = ofMagnitudeBits negative (magnitudeBits m e) := by
  have hlt : x.toBits.toNat < 2 ^ 64 := x.toBits.toNat_lt
  have hx := ofBits_toNat x
  simp only [decode, twoTo_eq] at h
  generalize x.toBits.toNat = bits at h hlt hx
  have hsign : bits = (if bits / 2 ^ 63 % 2 = 1 then 2 ^ 63 else 0) +
      (bits / 2 ^ 52 % 2 ^ 11 * 2 ^ 52 + bits % 2 ^ 52) := by
    split <;> omega
  have hsigned (magnitude : ℕ)
      (heq : bits / 2 ^ 52 % 2 ^ 11 * 2 ^ 52 + bits % 2 ^ 52 = magnitude) :
      x = ofMagnitudeBits (decide (bits / 2 ^ 63 % 2 = 1)) magnitude := by
    rw [heq] at hsign
    rw [← hx, ofMagnitudeBits, twoTo_eq]
    conv_lhs => rw [hsign]
    simp only [decide_eq_true_eq]
    split <;> simp
  by_cases hfield : bits / 2 ^ 52 % 2 ^ 11 = 2047
  · rw [if_pos hfield] at h
    split at h <;> cases h
  · rw [if_neg hfield] at h
    by_cases hzero : bits / 2 ^ 52 % 2 ^ 11 = 0
    · rw [if_pos hzero] at h
      cases h
      refine ⟨⟨by omega, by omega, by omega, by omega⟩, hsigned _ ?_⟩
      simp only [magnitudeBits]
      split <;> omega
    · rw [if_neg hzero] at h
      cases h
      refine ⟨⟨by omega, by omega, by omega, by omega⟩, hsigned _ ?_⟩
      simp only [magnitudeBits]
      split <;> omega

theorem decode_infinite {x : Float} {negative : Bool} (h : decode x = .infinite negative) :
    x = infinity negative := by
  have hlt : x.toBits.toNat < 2 ^ 64 := x.toBits.toNat_lt
  have hx := ofBits_toNat x
  simp only [decode, twoTo_eq] at h
  generalize x.toBits.toNat = bits at h hlt hx
  by_cases hfield : bits / 2 ^ 52 % 2 ^ 11 = 2047
  · rw [if_pos hfield] at h
    split at h
    · cases h
      have hbits : bits = if bits / 2 ^ 63 % 2 = 1 then 2 ^ 63 + 2047 * 2 ^ 52
          else 2047 * 2 ^ 52 := by split <;> omega
      rw [← hx, infinity, ofMagnitudeBits, twoTo_eq, twoTo_eq]
      conv_lhs => rw [hbits]
      simp only [decide_eq_true_eq]
    · cases h
  · rw [if_neg hfield] at h
    split at h <;> cases h

section Fields

open Float.Model Float.Model.UnpackedFloat

theorem toNat_unpackMantissa (b : BitVec 64) :
    (@unpackMantissa Format.binary64 b).toNat = b.toNat % 2 ^ 52 := by
  change b.toNat >>> 0 % 2 ^ 52 = _
  rw [Nat.shiftRight_zero]

theorem toNat_unpackExponent (b : BitVec 64) :
    (@unpackExponent Format.binary64 b).toNat = b.toNat / 2 ^ 52 % 2 ^ 11 := by
  change b.toNat >>> 52 % 2 ^ 11 = _
  rw [Nat.shiftRight_eq_div_pow]

theorem toNat_unpackSign (b : BitVec 64) :
    (@unpackSign Format.binary64 b).toNat = b.toNat / 2 ^ 63 % 2 := by
  change b.toNat >>> 63 % 2 ^ 1 = _
  rw [Nat.shiftRight_eq_div_pow, pow_one]

theorem decode_notANumber {x : Float} (h : decode x = .notANumber) : x = notANumber := by
  have hlt : x.toBits.toNat < 2 ^ 64 := x.toBits.toNat_lt
  simp only [decode, twoTo_eq] at h
  have hfield : x.toBits.toNat / 2 ^ 52 % 2 ^ 11 = 2047 := by
    by_contra hne
    rw [if_neg hne] at h
    split at h <;> cases h
  have hfraction : x.toBits.toNat % 2 ^ 52 ≠ 0 := by
    intro hzero
    rw [if_pos hfield, if_pos hzero] at h
    cases h
  have hbits : x.toBits.toBitVec = UnpackedFloat.packedNaN Format.binary64 := by
    apply x.toModel.valid.eq_packedNaN
    · apply BitVec.eq_of_toNat_eq
      exact (toNat_unpackExponent x.toBits.toBitVec).trans hfield
    · intro hzero
      apply hfraction
      exact (toNat_unpackMantissa x.toBits.toBitVec).symm.trans (congrArg BitVec.toNat hzero)
  rw [← Float.toBits_inj, ← UInt64.toBitVec_inj, hbits]
  decide +kernel

end Fields

/-! ### The exponent of a quotient -/

theorem scaled_le_iff {num den : ℕ} (hden : 0 < den) (e : ℤ) (n : ℕ) :
    num * 2 ^ (-e).toNat ≤ n * (den * 2 ^ e.toNat) ↔ (num / den : ℚ) ≤ n * 2 ^ e := by
  have hd : (0 : ℚ) < den := by exact_mod_cast hden
  have hp : (0 : ℚ) < 2 ^ (-e).toNat := by positivity
  have hsplit := zpow_mul_toNat (b := 2) (by norm_num) e
  rw [div_le_iff₀ hd, ← mul_le_mul_iff_left₀ hp, mul_right_comm, mul_assoc (n : ℚ), hsplit,
    mul_assoc, mul_comm ((2 : ℚ) ^ e.toNat)]
  norm_cast

theorem le_scaled_iff {num den : ℕ} (hden : 0 < den) (e : ℤ) (n : ℕ) :
    n * (den * 2 ^ e.toNat) ≤ num * 2 ^ (-e).toNat ↔ (n : ℚ) * 2 ^ e ≤ num / den := by
  have hd : (0 : ℚ) < den := by exact_mod_cast hden
  have hp : (0 : ℚ) < 2 ^ (-e).toNat := by positivity
  have hsplit := zpow_mul_toNat (b := 2) (by norm_num) e
  rw [le_div_iff₀ hd, ← mul_le_mul_iff_left₀ hp, mul_right_comm, mul_assoc (n : ℚ), hsplit,
    mul_assoc, mul_comm ((2 : ℚ) ^ e.toNat)]
  norm_cast

theorem guess_bounds {num den : ℕ} (hnum : 0 < num) (hden : 0 < den) :
    (2 : ℚ) ^ ((num.log2 : ℤ) - den.log2 - 52 + 51) < num / den ∧
      (num / den : ℚ) < 2 ^ ((num.log2 : ℤ) - den.log2 - 52 + 53) := by
  have hd : (0 : ℚ) < den := by exact_mod_cast hden
  have htwo : (2 : ℚ) ≠ 0 := by norm_num
  have hnumLow : ((2 : ℚ) ^ num.log2) ≤ num := by exact_mod_cast Nat.log2_self_le hnum.ne'
  have hnumHigh : (num : ℚ) < 2 ^ (num.log2 + 1) := by exact_mod_cast Nat.lt_log2_self
  have hdenLow : ((2 : ℚ) ^ den.log2) ≤ den := by exact_mod_cast Nat.log2_self_le hden.ne'
  have hdenHigh : (den : ℚ) < 2 ^ (den.log2 + 1) := by exact_mod_cast Nat.lt_log2_self
  generalize hguess : (num.log2 : ℤ) - den.log2 - 52 = guess
  constructor
  · rw [lt_div_iff₀ hd]
    calc (2 : ℚ) ^ (guess + 51) * den < 2 ^ (guess + 51) * 2 ^ (den.log2 + 1) := by gcongr
      _ = 2 ^ num.log2 := by
        rw [← zpow_natCast, ← zpow_natCast, ← zpow_add₀ htwo]
        congr 1
        push_cast
        omega
      _ ≤ num := hnumLow
  · rw [div_lt_iff₀ hd]
    calc (num : ℚ) < 2 ^ (num.log2 + 1) := hnumHigh
      _ = 2 ^ (guess + 53) * 2 ^ den.log2 := by
        rw [← zpow_natCast, ← zpow_natCast, ← zpow_add₀ htwo]
        congr 1
        push_cast
        omega
      _ ≤ 2 ^ (guess + 53) * den := by gcongr

theorem short_iff {num den : ℕ} (hden : 0 < den) (guess : ℤ) :
    (if guess ≥ 0 then decide (num < den * twoTo (guess.toNat + 52))
      else decide (num * twoTo (-guess).toNat < den * twoTo 52)) = true ↔
        (num / den : ℚ) < 2 ^ (guess + 52) := by
  have hpow : (2 : ℚ) ^ (guess + 52) = (2 ^ 52 : ℕ) * 2 ^ guess := by
    rw [zpow_add₀ (by norm_num), mul_comm]
    norm_num
  have hscaled : num * 2 ^ (-guess).toNat < 2 ^ 52 * (den * 2 ^ guess.toNat) ↔
      (num / den : ℚ) < (2 ^ 52 : ℕ) * 2 ^ guess := by
    rw [← not_le, ← not_le, le_scaled_iff hden]
  rw [hpow, ← hscaled, twoTo_eq, twoTo_eq, twoTo_eq]
  split
  · next hpos =>
    rw [decide_eq_true_eq, show (-guess).toNat = 0 by omega, pow_zero, mul_one, pow_add,
      ← mul_assoc, mul_comm]
  · next hneg =>
    rw [decide_eq_true_eq, show guess.toNat = 0 by omega, pow_zero, mul_one, mul_comm den]

theorem exponentOf_bounds {num den : ℕ} (hnum : 0 < num) (hden : 0 < den) :
    -1074 ≤ exponentOf num den ∧ (num / den : ℚ) < 2 ^ (exponentOf num den + 53) ∧
      (-1074 < exponentOf num den → (2 : ℚ) ^ (exponentOf num den + 52) ≤ num / den) := by
  obtain ⟨hlow, hhigh⟩ := guess_bounds hnum hden
  unfold exponentOf
  generalize (num.log2 : ℤ) - den.log2 - 52 = guess at hlow hhigh
  simp only [short_iff hden]
  -- The guess is one too great where the quotient has a binary digit less than it was taken for.
  by_cases hshort : (num / den : ℚ) < 2 ^ (guess + 52)
  · rw [if_pos hshort]
    refine ⟨le_max_right _ _, lt_of_lt_of_le hshort ?_, fun hmax => ?_⟩
    · exact zpow_le_zpow_right₀ (by norm_num) (by omega)
    · rw [max_eq_left (by omega), show guess - 1 + 52 = guess + 51 by omega]
      exact hlow.le
  · rw [if_neg hshort]
    refine ⟨le_max_right _ _, lt_of_lt_of_le hhigh ?_, fun hmax => ?_⟩
    · exact zpow_le_zpow_right₀ (by norm_num) (by omega)
    · rw [max_eq_left (by omega)]
      exact not_lt.mp hshort

/-! ### The rationals around a double -/

/-- The rationals that round to `m * 2 ^ e`. Those halfway to a neighbour do if `m` is even. -/
def Near (m : ℕ) (e : ℤ) (q : ℚ) : Prop :=
  let i := Shortest.Interval.of m e
  ((i.low : ℚ) * 2 ^ i.scale < q ∨ i.closed ∧ (i.low : ℚ) * 2 ^ i.scale = q) ∧
    (q < (i.high : ℚ) * 2 ^ i.scale ∨ i.closed ∧ q = (i.high : ℚ) * 2 ^ i.scale)

theorem zpow_sub_two (e : ℤ) : (2 : ℚ) ^ (e - 2) = 2 ^ e / 4 := by
  rw [zpow_sub₀ (by norm_num)]
  norm_num

theorem near_high {m : ℕ} {e : ℤ} {q : ℚ} (h : Near m e q) :
    q ≤ (m + 1 / 2) * 2 ^ e ∧ (q = (m + 1 / 2) * 2 ^ e → m % 2 = 0) := by
  have heq : ((4 * m + 2 : ℕ) : ℚ) * 2 ^ (e - 2) = (m + 1 / 2) * 2 ^ e := by
    rw [zpow_sub_two]
    push_cast
    ring
  obtain ⟨-, h⟩ := h
  simp only [Shortest.Interval.of, decide_eq_true_eq, heq] at h
  rcases h with h | ⟨heven, h⟩
  · exact ⟨h.le, fun hq => absurd hq h.ne⟩
  · exact ⟨h.le, fun _ => heven⟩

theorem near_low {m : ℕ} {e : ℤ} {q : ℚ} (hm : 0 < m) (h : Near m e q) :
    (m - 1 / 2) * 2 ^ e ≤ q ∧ (q = (m - 1 / 2) * 2 ^ e → m % 2 = 0) := by
  have hp : (0 : ℚ) < 2 ^ e := by positivity
  have hhalf : ((4 * m - 2 : ℕ) : ℚ) * 2 ^ (e - 2) = (m - 1 / 2) * 2 ^ e := by
    rw [zpow_sub_two, Nat.cast_sub (by omega)]
    push_cast
    ring
  have hquarter : ((4 * m - 1 : ℕ) : ℚ) * 2 ^ (e - 2) = (m - 1 / 4) * 2 ^ e := by
    rw [zpow_sub_two, Nat.cast_sub (by omega)]
    push_cast
    ring
  obtain ⟨h, -⟩ := h
  simp only [Shortest.Interval.of, decide_eq_true_eq] at h
  split at h
  · rw [hquarter] at h
    have hlt : (m - 1 / 2 : ℚ) * 2 ^ e < q := by rcases h with h | ⟨-, h⟩ <;> nlinarith
    exact ⟨hlt.le, fun hq => absurd hq hlt.ne'⟩
  · rw [hhalf] at h
    rcases h with h | ⟨heven, h⟩
    · exact ⟨h.le, fun hq => absurd hq h.ne'⟩
    · exact ⟨h.le, fun _ => heven⟩

theorem near_pos {m : ℕ} {e : ℤ} {q : ℚ} (hm : 0 < m) (h : Near m e q) : 0 < q := by
  have hm1 : (1 : ℚ) ≤ m := by exact_mod_cast hm
  have hhalf : (0 : ℚ) < (m - 1 / 2) * 2 ^ e := mul_pos (by linarith) (by positivity)
  exact hhalf.trans_le (near_low hm h).1

/-- Below a power of two the next double is only half as far away. -/
theorem near_low_power {e : ℤ} {q : ℚ} (he : -1074 < e) (h : Near (2 ^ 52) e q) :
    (2 ^ 52 - 1 / 4) * 2 ^ e ≤ q := by
  obtain ⟨h, -⟩ := h
  simp only [Shortest.Interval.of, twoTo_eq, decide_eq_true_eq] at h
  rw [if_pos ⟨trivial, he⟩, zpow_sub_two] at h
  push_cast at h
  rcases h with h | ⟨-, h⟩ <;> linarith

theorem roundQuotient_of_near {num den M : ℕ} (hden : 0 < den)
    (hlow : (M - 1 / 2 : ℚ) * den ≤ num) (hhigh : (num : ℚ) ≤ (M + 1 / 2) * den)
    (htie : (num : ℚ) = (M - 1 / 2) * den ∨ (num : ℚ) = (M + 1 / 2) * den → M % 2 = 0) :
    roundQuotient num den = M := by
  apply roundQuotient_eq hden
  · qify
    linarith
  · qify
    linarith
  · intro h
    qify at h
    apply htie
    rcases h with h | h
    · left
      linarith
    · right
      linarith

theorem round_scaled {num den : ℕ} (M : ℕ) (E : ℤ) (hden : 0 < den)
    (hlow : (M - 1 / 2 : ℚ) * 2 ^ E ≤ num / den) (hhigh : (num / den : ℚ) ≤ (M + 1 / 2) * 2 ^ E)
    (htie : (num / den : ℚ) = (M - 1 / 2) * 2 ^ E ∨ (num / den : ℚ) = (M + 1 / 2) * 2 ^ E →
      M % 2 = 0) :
    (if E ≥ 0 then roundQuotient num (den * twoTo E.toNat)
      else roundQuotient (num * twoTo (-E).toNat) den) = M := by
  have hd : (0 : ℚ) < den := by exact_mod_cast hden
  have hsplit := zpow_mul_toNat (b := 2) (by norm_num) E
  rw [le_div_iff₀ hd] at hlow
  rw [div_le_iff₀ hd] at hhigh
  rw [div_eq_iff hd.ne', div_eq_iff hd.ne'] at htie
  simp only [twoTo_eq]
  split
  · next hE =>
    rw [show (-E).toNat = 0 by omega, pow_zero, mul_one] at hsplit
    have hscale (x : ℚ) : x * (den * 2 ^ E.toNat : ℕ) = x * 2 ^ E * den := by
      rw [hsplit]
      push_cast
      ring
    apply roundQuotient_of_near (by positivity) <;> simpa only [hscale]
  · next hE =>
    rw [show E.toNat = 0 by omega, pow_zero] at hsplit
    have hp : (0 : ℚ) < 2 ^ (-E).toNat := by positivity
    have hscale (x : ℚ) : x * den = x * 2 ^ E * den * 2 ^ (-E).toNat := by
      rw [mul_right_comm, mul_assoc x, hsplit, mul_one]
    apply roundQuotient_of_near hden
    · rw [hscale]
      push_cast
      exact mul_le_mul_of_nonneg_right hlow hp.le
    · rw [hscale]
      push_cast
      exact mul_le_mul_of_nonneg_right hhigh hp.le
    · rw [hscale (M - 1 / 2), hscale (M + 1 / 2)]
      push_cast
      rw [mul_left_inj' hp.ne', mul_left_inj' hp.ne']
      exact htie

theorem exponentOf_le_of_near {m num den : ℕ} {e : ℤ} (hc : Canonical m e) (hnum : 0 < num)
    (hden : 0 < den) (h : Near m e (num / den)) : exponentOf num den ≤ e := by
  obtain ⟨-, -, hlow⟩ := exponentOf_bounds hnum hden
  have hleast := hc.least
  have hmlt : (m + 1 : ℚ) ≤ 2 ^ 53 := by exact_mod_cast hc.mantissa_lt
  have hpow : (0 : ℚ) < 2 ^ e := by positivity
  by_contra hlt
  have hnext : (2 : ℚ) ^ (e + 53) ≤ 2 ^ (exponentOf num den + 52) :=
    zpow_le_zpow_right₀ (by norm_num) (by omega)
  have hbelow : (m + 1 / 2 : ℚ) * 2 ^ e < 2 ^ (e + 53) := by
    rw [zpow_add₀ (by norm_num), mul_comm]
    exact mul_lt_mul_of_pos_left (by norm_num at hmlt ⊢; linarith) hpow
  have hhigh := (near_high h).1
  have := hlow (by omega)
  linarith

/-- Of the numbers next to a double only those just below a power of two lie in the next lower
binade. -/
theorem power_of_near {m num den : ℕ} {e : ℤ} (hc : Canonical m e) (hm : 0 < m) (hnum : 0 < num)
    (hden : 0 < den) (h : Near m e (num / den)) (hlt : exponentOf num den < e) :
    m = 2 ^ 52 ∧ e = exponentOf num den + 1 := by
  obtain ⟨hleast, hhigh, -⟩ := exponentOf_bounds hnum hden
  have hpow : (0 : ℚ) < 2 ^ e := by positivity
  have hquotient : (num / den : ℚ) < 2 ^ 52 * 2 ^ e := by
    have hbinade : (2 : ℚ) ^ (exponentOf num den + 53) ≤ 2 ^ (e + 52) :=
      zpow_le_zpow_right₀ (by norm_num) (by omega)
    have hsplit : (2 : ℚ) ^ (e + 52) = 2 ^ 52 * 2 ^ e := by
      rw [zpow_add₀ (by norm_num), mul_comm]
      norm_num
    linarith
  have hnormal : 2 ^ 52 ≤ m := by
    by_contra hsmall
    have := hc.subnormal (by omega)
    omega
  have hmantissa : m = 2 ^ 52 := by
    by_contra hne
    have hmore : (2 ^ 52 + 1 : ℚ) ≤ m := by exact_mod_cast (by omega : 2 ^ 52 + 1 ≤ m)
    have habove : (2 ^ 52 : ℚ) * 2 ^ e ≤ (m - 1 / 2) * 2 ^ e :=
      mul_le_mul_of_nonneg_right (by linarith) hpow.le
    have hlow := (near_low hm h).1
    linarith
  subst hmantissa
  refine ⟨rfl, ?_⟩
  by_contra hne
  have hbinade : (2 : ℚ) ^ (exponentOf num den + 53) ≤ 2 ^ (e + 51) :=
    zpow_le_zpow_right₀ (by norm_num) (by omega)
  have hsplit : (2 : ℚ) ^ (e + 51) = 2 ^ 51 * 2 ^ e := by
    rw [zpow_add₀ (by norm_num), mul_comm]
    norm_num
  have hquarter : (2 ^ 51 : ℚ) * 2 ^ e < (2 ^ 52 - 1 / 4) * 2 ^ e :=
    mul_lt_mul_of_pos_right (by norm_num) hpow
  have hnear := near_low_power (by omega) h
  linarith

theorem ofRatio_near {m num den : ℕ} {e : ℤ} (hc : Canonical m e) (hm : 0 < m) (hden : 0 < den)
    (h : Near m e (num / den)) (negative : Bool) :
    ofRatio negative num den = ofMagnitudeBits negative (magnitudeBits m e) := by
  have hnum : 0 < num := by
    apply Nat.pos_of_ne_zero
    rintro rfl
    have hpos := near_pos hm h
    rw [Nat.cast_zero, zero_div] at hpos
    exact hpos.false
  have hround (M : ℕ) := @round_scaled num den M (exponentOf num den) hden
  unfold ofRatio
  rw [if_neg hnum.ne']
  rcases (exponentOf_le_of_near hc hnum hden h).lt_or_eq with hlt | heq
  · -- One binade lower the mantissa has all its digits, and is rounded up to the power of two.
    obtain ⟨hleast, hhigh, -⟩ := exponentOf_bounds hnum hden
    have hgreatest := hc.greatest
    obtain ⟨rfl, hnext⟩ := power_of_near hc hm hnum hden h hlt
    have hnear := near_low_power (by omega) h
    generalize exponentOf num den = E at *
    subst hnext
    have hpow : (0 : ℚ) < 2 ^ E := by positivity
    rw [zpow_add_one₀ (by norm_num), mul_comm ((2 : ℚ) ^ E)] at hnear
    rw [zpow_add₀ (by norm_num)] at hhigh
    norm_num at hhigh
    have hmantissa := hround (2 ^ 53) (by push_cast; linarith) (by push_cast; linarith) (by norm_num)
    dsimp only
    rw [hmantissa, twoTo_eq, magnitudeBits, if_neg (by norm_num), if_neg (by norm_num)]
    exact congrArg _ (by omega)
  · obtain ⟨hlow, htielow⟩ := near_low hm h
    obtain ⟨hhigh, htiehigh⟩ := near_high h
    have hgreatest := hc.greatest
    have hmlt := hc.mantissa_lt
    have hmantissa := hround m (heq ▸ hlow) (heq ▸ hhigh) (by
      rw [heq]
      rintro (h' | h')
      · exact htielow h'
      · exact htiehigh h')
    dsimp only
    rw [hmantissa, heq, twoTo_eq, magnitudeBits]
    split
    · rfl
    · exact congrArg _ (by omega)

end Binary64

end JavaProfile
