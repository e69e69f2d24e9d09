import JavaProfile.Proofs.Number.Nearest

/-!
The digits that are written for a double lie next to it: on the grid of seventeen digits, if not
before, the search finds a point that rounds to the double.
-/

namespace JavaProfile.Shortest

open Binary64 (Canonical Near zpow_sub_two)

theorem compareScaled_eq (a : ℕ) (s : ℤ) (b : ℕ) (t : ℤ) :
    compareScaled a s b t = compare ((a : ℚ) * 10 ^ s) (b * 2 ^ t) := by
  have hten := zpow_mul_toNat (b := 10) (by norm_num) s
  have htwo := zpow_mul_toNat (b := 2) (by norm_num) t
  have hp : (0 : ℚ) < 10 ^ (-s).toNat * 2 ^ (-t).toNat := by positivity
  have hleft : (a * 10 ^ s.toNat * 2 ^ (-t).toNat : ℚ) =
      a * 10 ^ s * (10 ^ (-s).toNat * 2 ^ (-t).toNat) := by rw [← hten]; ring
  have hright : (b * 2 ^ t.toNat * 10 ^ (-s).toNat : ℚ) =
      b * 2 ^ t * (10 ^ (-s).toNat * 2 ^ (-t).toNat) := by rw [← htwo]; ring
  simp only [compareScaled, twoTo_eq, tenTo_eq]
  rcases lt_trichotomy ((a : ℚ) * 10 ^ s) (b * 2 ^ t) with h | h | h
  · rw [compare_lt_iff_lt.mpr h, compare_lt_iff_lt]
    have := mul_lt_mul_of_pos_right h hp
    rw [← hleft, ← hright] at this
    exact_mod_cast this
  · rw [compare_eq_iff_eq.mpr h, compare_eq_iff_eq]
    have := congrArg (· * ((10 : ℚ) ^ (-s).toNat * 2 ^ (-t).toNat)) h
    rw [← hleft, ← hright] at this
    exact_mod_cast this
  · rw [compare_gt_iff_gt.mpr h, compare_gt_iff_gt]
    have := mul_lt_mul_of_pos_right h hp
    rw [← hleft, ← hright] at this
    exact_mod_cast this

/-! ### Points of a grid -/

variable {m : ℕ} {e : ℤ}

theorem near_of_holds {a : ℕ} {s : ℤ} (hm : 0 < m) (h : (Interval.of m e).holds a s = true) :
    Near m e (a * 10 ^ s) := by
  have hp : (0 : ℚ) < 2 ^ (Interval.of m e).scale := by positivity
  have hlt : ((Interval.of m e).low : ℚ) < (Interval.of m e).high := by
    simp only [Interval.of]
    split <;> exact_mod_cast (by omega)
  have hwidth := mul_lt_mul_of_pos_right hlt hp
  simp only [Interval.holds, compareScaled_eq] at h
  unfold Near
  rcases lt_trichotomy ((a : ℚ) * 10 ^ s)
    ((Interval.of m e).low * 2 ^ (Interval.of m e).scale) with hl | hl | hl
  · have hh : (a : ℚ) * 10 ^ s < (Interval.of m e).high * 2 ^ (Interval.of m e).scale :=
      hl.trans hwidth
    rw [compare_lt_iff_lt.mpr hl, compare_lt_iff_lt.mpr hh] at h
    cases h
  · rw [compare_eq_iff_eq.mpr hl] at h
    exact ⟨.inr ⟨h, hl.symm⟩, .inl (hl ▸ hwidth)⟩
  · rw [compare_gt_iff_gt.mpr hl] at h
    refine ⟨.inl hl, ?_⟩
    rcases lt_trichotomy ((a : ℚ) * 10 ^ s)
      ((Interval.of m e).high * 2 ^ (Interval.of m e).scale) with hh | hh | hh
    · exact .inl hh
    · rw [compare_eq_iff_eq.mpr hh] at h
      exact .inr ⟨h, hh⟩
    · rw [compare_gt_iff_gt.mpr hh] at h
      cases h

theorem holds_of_between {a : ℕ} {s : ℤ}
    (hlow : ((Interval.of m e).low : ℚ) * 2 ^ (Interval.of m e).scale < a * 10 ^ s)
    (hhigh : (a * 10 ^ s : ℚ) < (Interval.of m e).high * 2 ^ (Interval.of m e).scale) :
    (Interval.of m e).holds a s = true := by
  simp only [Interval.holds, compareScaled_eq, compare_gt_iff_gt.mpr hlow,
    compare_lt_iff_lt.mpr hhigh]

theorem holds_of_point? {i : Interval} {s : ℤ} {a : ℕ} (h : i.point? s = some a) :
    i.holds a s = true := by
  unfold Interval.point? at h
  dsimp only at h
  split at h
  · next h1 h2 =>
    split at h <;> cases h
    · exact h1
    · exact h2
    · split <;> assumption
  · next h1 h2 => cases h; exact h1
  · next h1 h2 => cases h; exact h2
  · cases h

theorem below_bounds (i : Interval) (s : ℤ) :
    (i.below s * 10 ^ s : ℚ) ≤ i.value * 2 ^ i.scale ∧
      (i.value * 2 ^ i.scale : ℚ) < (i.below s + 1) * 10 ^ s := by
  have hten := zpow_mul_toNat (b := 10) (by norm_num) s
  have htwo := zpow_mul_toNat (b := 2) (by norm_num) i.scale
  set num := i.value * 2 ^ i.scale.toNat * 10 ^ (-s).toNat with hnum
  set den := 10 ^ s.toNat * 2 ^ (-i.scale).toNat with hden
  have hbelow : i.below s = num / den := by
    simp only [Interval.below, twoTo_eq, tenTo_eq, hnum, hden]
  have hp : (0 : ℚ) < 10 ^ (-s).toNat * 2 ^ (-i.scale).toNat := by positivity
  have hvalue : (num : ℚ) = i.value * 2 ^ i.scale * (10 ^ (-s).toNat * 2 ^ (-i.scale).toNat) := by
    rw [hnum]
    push_cast
    rw [← htwo]
    ring
  have hgrid : (den : ℚ) = 10 ^ s * (10 ^ (-s).toNat * 2 ^ (-i.scale).toNat) := by
    rw [hden]
    push_cast
    rw [← hten]
    ring
  have hpos : 0 < den := by positivity
  have hlow : num / den * den ≤ num := Nat.div_mul_le_self _ _
  have hhigh : num < (num / den + 1) * den := by
    rw [Nat.add_mul, one_mul]
    exact Nat.lt_div_mul_add hpos
  rw [hbelow]
  qify at hlow hhigh
  rw [hvalue, hgrid] at hlow hhigh
  constructor
  · refine le_of_mul_le_mul_right ?_ hp
    calc _ = ((num / den : ℕ) : ℚ) * (10 ^ s * (10 ^ (-s).toNat * 2 ^ (-i.scale).toNat)) := by ring
      _ ≤ _ := hlow
  · refine lt_of_mul_lt_mul_right ?_ hp.le
    calc _ < (((num / den : ℕ) : ℚ) + 1) * (10 ^ s * (10 ^ (-s).toNat * 2 ^ (-i.scale).toNat)) :=
          hhigh
      _ = _ := by ring

theorem point?_isSome {s : ℤ} (hm : 0 < m)
    (hstep : (10 : ℚ) ^ s < (((Interval.of m e).high : ℚ) - (Interval.of m e).low) *
      2 ^ (Interval.of m e).scale) :
    ∃ a, (Interval.of m e).point? s = some a := by
  obtain ⟨hbelow, habove⟩ := below_bounds (Interval.of m e) s
  set i := Interval.of m e with hi
  have hp : (0 : ℚ) < 2 ^ i.scale := by positivity
  have hten : (0 : ℚ) < 10 ^ s := by positivity
  have hlow : (i.low : ℚ) < i.value := by
    simp only [hi, Interval.of]
    split <;> exact_mod_cast (by omega)
  have hhigh : (i.value : ℚ) < i.high := by
    simp only [hi, Interval.of]
    exact_mod_cast (by omega)
  have hlow' := mul_lt_mul_of_pos_right hlow hp
  have hhigh' := mul_lt_mul_of_pos_right hhigh hp
  -- The value lies between two neighbours on the grid, which are less apart than the two bounds.
  have hone : i.holds (i.below s) s = true ∨ i.holds (i.below s + 1) s = true := by
    by_cases h : (i.low : ℚ) * 2 ^ i.scale < i.below s * 10 ^ s
    · exact .inl (holds_of_between h (hbelow.trans_lt hhigh'))
    · right
      apply holds_of_between
      · push_cast
        linarith
      · push_cast
        linarith
  unfold Interval.point?
  dsimp only
  rcases hone with h | h <;> rw [h] <;> split <;> simp_all
  all_goals split <;> exact ⟨_, rfl⟩

theorem search_holds {i : Interval} {k : ℤ} {fuel places : ℕ}
    (h : ∃ a, i.point? (k - (places + fuel : ℕ)) = some a) :
    i.holds (i.search k (fuel + 1) places).1 (i.search k (fuel + 1) places).2 = true := by
  induction fuel generalizing places with
  | zero =>
    obtain ⟨a, ha⟩ := h
    rw [Nat.add_zero] at ha
    simp only [Interval.search, ha]
    exact holds_of_point? ha
  | succ fuel ih =>
    rw [Interval.search]
    split
    · next a ha => exact holds_of_point? ha
    · apply ih
      rwa [show places + 1 + fuel = places + (fuel + 1) by omega]

theorem magnitude_bound {i : Interval} {fuel : ℕ} {k : ℤ}
    (h : (10 : ℚ) ^ (k - 1) ≤ i.value * 2 ^ i.scale) :
    (10 : ℚ) ^ (i.magnitude fuel k - 1) ≤ i.value * 2 ^ i.scale := by
  induction fuel generalizing k with
  | zero => exact h
  | succ fuel ih =>
    rw [Interval.magnitude]
    split
    · exact h
    · next hk =>
      apply ih
      rw [compareScaled_eq, compare_gt_iff_gt, not_lt] at hk
      simpa using hk

/-! ### The guess at the magnitude -/

theorem guess_le_of_lt : ∀ n < 2098,
    10 ^ (((n : ℕ) - 1074 : ℤ) * 30103 / 100000 - 2).toNat * 2 ^ (-((n : ℕ) - 1074 : ℤ)).toNat ≤
      2 ^ ((n : ℕ) - 1074 : ℤ).toNat *
        10 ^ (-(((n : ℕ) - 1074 : ℤ) * 30103 / 100000 - 2)).toNat := by
  decide +kernel

theorem guess_le (bits : ℤ) (hlow : -1074 ≤ bits) (hhigh : bits ≤ 1023) :
    (10 : ℚ) ^ (bits * 30103 / 100000 - 1 - 1) ≤ 2 ^ bits := by
  have h := guess_le_of_lt (bits + 1074).toNat (by omega)
  rw [Int.toNat_of_nonneg (by omega), show bits + 1074 - 1074 = bits by omega] at h
  rw [show bits * 30103 / 100000 - 1 - 1 = bits * 30103 / 100000 - 2 by omega]
  generalize bits * 30103 / 100000 - 2 = k at h
  have hten := zpow_mul_toNat (b := 10) (by norm_num) k
  have htwo := zpow_mul_toNat (b := 2) (by norm_num) bits
  have hp : (0 : ℚ) < 10 ^ (-k).toNat * 2 ^ (-bits).toNat := by positivity
  qify at h
  rw [← hten, ← htwo] at h
  apply le_of_mul_le_mul_right _ hp
  linarith

theorem dropZeros_value (fuel digits : ℕ) (exponent : ℤ) :
    ((dropZeros fuel digits exponent).1 * 10 ^ (dropZeros fuel digits exponent).2 : ℚ) =
      digits * 10 ^ exponent := by
  induction fuel generalizing digits exponent with
  | zero => rfl
  | succ fuel ih =>
    rw [dropZeros]
    split
    · next h =>
      have hdigits : (digits : ℚ) = (digits / 10 : ℕ) * 10 := by
        exact_mod_cast (by omega : digits = digits / 10 * 10)
      rw [ih, zpow_add_one₀ (by norm_num), hdigits]
      ring
    · rfl

/-! ### The decimal that is written -/

theorem value_scaled : ((Interval.of m e).value : ℚ) * 2 ^ (Interval.of m e).scale = m * 2 ^ e := by
  simp only [Interval.of, zpow_sub_two]
  push_cast
  ring

theorem width_le (hm : 0 < m) : (3 / 4 * 2 ^ e : ℚ) ≤
      (((Interval.of m e).high : ℚ) - (Interval.of m e).low) * 2 ^ (Interval.of m e).scale ∧
    (m ≠ 2 ^ 52 → (2 ^ e : ℚ) ≤
      (((Interval.of m e).high : ℚ) - (Interval.of m e).low) * 2 ^ (Interval.of m e).scale) := by
  have hp : (0 : ℚ) < 2 ^ e := by positivity
  simp only [Interval.of, zpow_sub_two, twoTo_eq]
  split
  · next h =>
    rw [Nat.cast_sub (by omega)]
    push_cast
    exact ⟨by linarith, fun hne => absurd h.1 hne⟩
  · rw [Nat.cast_sub (by omega)]
    push_cast
    exact ⟨by linarith, fun _ => by linarith⟩

theorem magnitude_le (hc : Canonical m e) (hm : 0 < m) :
    (10 : ℚ) ^ ((Interval.of m e).magnitude 4 ((m.log2 + e) * 30103 / 100000 - 1) - 1) ≤
      m * 2 ^ e := by
  have hp : (0 : ℚ) < 2 ^ e := by positivity
  have hlog : (2 : ℚ) ^ (m.log2 + e) ≤ m * 2 ^ e := by
    rw [zpow_add₀ (by norm_num), zpow_natCast]
    apply mul_le_mul_of_nonneg_right _ hp.le
    exact_mod_cast Nat.log2_self_le hm.ne'
  have hbits : m.log2 < 53 := (Nat.log2_lt hm.ne').mpr hc.mantissa_lt
  have hleast := hc.least
  have hgreatest := hc.greatest
  have hguess := guess_le (m.log2 + e) (by omega) (by omega)
  rw [← value_scaled]
  apply magnitude_bound
  rw [value_scaled]
  exact hguess.trans hlog

theorem grid_lt_width {k : ℤ} (hc : Canonical m e) (hpos : 0 < m)
    (h : (10 : ℚ) ^ (k - 1) ≤ m * 2 ^ e) :
    (10 : ℚ) ^ (k - (1 + 16 : ℕ)) <
      (((Interval.of m e).high : ℚ) - (Interval.of m e).low) * 2 ^ (Interval.of m e).scale := by
  have hp : (0 : ℚ) < 2 ^ e := by positivity
  have hgrid : (10 : ℚ) ^ (k - (1 + 16 : ℕ)) * 10 ^ 16 ≤ m * 2 ^ e := by
    calc (10 : ℚ) ^ (k - (1 + 16 : ℕ)) * 10 ^ 16 = 10 ^ (k - 1) := by
          rw [← zpow_natCast, ← zpow_add₀ (by norm_num)]
          congr 1
          push_cast
          ring
      _ ≤ _ := h
  by_cases hm : m = 2 ^ 52
  · apply lt_of_lt_of_le _ (width_le (by omega)).1
    rw [hm] at hgrid
    norm_num at hgrid ⊢
    linarith
  · apply lt_of_lt_of_le _ ((width_le hpos).2 hm)
    have hlt : (m : ℚ) < 2 ^ 53 := by exact_mod_cast hc.mantissa_lt
    have := mul_lt_mul_of_pos_right hlt hp
    norm_num at hgrid this ⊢
    linarith

/-- What is written for a double rounds to it. -/
theorem decimal_near (hc : Canonical m e) (hm : 0 < m) :
    Near m e ((decimal m e).1 * 10 ^ (decimal m e).2) := by
  rw [decimal, if_neg hm.ne']
  dsimp only
  rw [dropZeros_value]
  apply near_of_holds hm
  apply search_holds
  exact point?_isSome hm (grid_lt_width hc hm (magnitude_le hc hm))

end JavaProfile.Shortest
