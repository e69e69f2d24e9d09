import JavaProfile.Proofs.Number.Arithmetic
import JavaProfile.Settings

/-!
Numbers of hours as lengths of time. The microseconds of a double are told up to their rounding, and
with them the numbers of hours for which there is a length of time and it is more than none.
-/

namespace JavaProfile

open Binary64

variable {x : Float}

theorem Duration.ofMicros_natCast (k : ℕ) :
    (∃ d, Duration.ofMicros k = .ok d ∧ 0 < d.micros) ↔ 0 < k ∧ k < 86400000000000000000 := by
  by_cases hfits : k < 86400000000000000000
  · have hok : Duration.ofMicros k = .ok ⟨k⟩ := by
      rw [Duration.ofMicros, if_neg (by omega), if_neg (by rw [Duration.maxDays]; omega)]
    simp [hok, hfits]
  · have hfault : ∃ fault, Duration.ofMicros k = .error fault := by
      rw [Duration.ofMicros]
      split
      · exact ⟨_, rfl⟩
      · rw [if_pos (by rw [Duration.maxDays]; omega)]
        exact ⟨_, rfl⟩
    obtain ⟨fault, hfault⟩ := hfault
    simp [hfault, hfits]

theorem Duration.micros_of_ofMicros {k : ℕ} {d : Duration} (h : Duration.ofMicros k = .ok d) :
    d.micros = k := by
  simp only [Duration.ofMicros] at h
  split at h
  · cases h
  · split at h
    · cases h
    · cases h
      rfl

theorem Number.truncate_floor (hx : Unsigned x) :
    (Number.double x).truncate = .ok ⌊magnitude x⌋₊ := by
  obtain ⟨m, e, hm⟩ := hx
  rw [Number.truncate, floor_magnitude hm]
  dsimp only
  rw [hm]
  rfl

namespace Hours

/-- The double 3600000000, an hour in microseconds. -/
def unit : Float := Binary64.ofInt (3600000000 : ℕ)

theorem decode_unit : decode unit = .finite false (3600000000 * 2 ^ 21) (-21) :=
  decode_ofInt ⟨by norm_num, by norm_num, by norm_num, by norm_num⟩ (by norm_num)

theorem magnitude_unit : magnitude unit = 3600000000 := by
  rw [magnitude_eq decode_unit]
  norm_num

/-- Less than what rounding can do to the product of an hour and a double. -/
theorem unit_mul_near (hx : Unsigned x) (hfit : magnitude x < 2 ^ 100) :
    Unsigned (unit * x) ∧ |magnitude (unit * x) - 3600000000 * magnitude x| ≤
      magnitude x / 2 ^ 20 + 1 / 2 ^ 20 := by
  obtain ⟨m, e, hm⟩ := hx
  have hnonneg := magnitude_nonneg x
  have hfits : magnitude unit * magnitude x < 2 ^ 1000 := by
    rw [magnitude_unit]
    calc 3600000000 * magnitude x ≤ 3600000000 * 2 ^ 100 := by gcongr
      _ < 2 ^ 200 := by norm_num
      _ ≤ 2 ^ 1000 := pow_le_pow_right₀ one_le_two (by norm_num)
  obtain ⟨hunsigned, hnear⟩ := mul_near decode_unit hm (by norm_num) hfits
  rw [magnitude_unit] at hnear
  have htiny : (2 : ℚ) ^ (-1074 : ℤ) ≤ 2 ^ (-20 : ℤ) :=
    zpow_le_zpow_right₀ one_le_two (by norm_num)
  rw [show (2 : ℚ) ^ (-20 : ℤ) = 1 / 2 ^ 20 by norm_num] at htiny
  refine ⟨hunsigned, hnear.trans ?_⟩
  linarith

/-- The microseconds of `x` hours before they are rounded to a whole number. -/
def micros (x : Float) : ℚ :=
  3600000000 * ⌊magnitude x⌋₊ + magnitude (unit * (x - Binary64.ofInt ⌊magnitude x⌋₊))

theorem rest_lt_one (hx : Unsigned x) : magnitude (x - Binary64.ofInt ⌊magnitude x⌋₊) < 1 := by
  have hnext := Nat.lt_floor_add_one (magnitude x)
  rw [(sub_floor hx).2]
  linarith

theorem micros_near (hx : Unsigned x) :
    |micros x - 3600000000 * magnitude x| ≤ 1 / 2 ^ 19 := by
  obtain ⟨hrest, hvalue⟩ := sub_floor hx
  have hsmall := rest_lt_one hx
  have hnear := (unit_mul_near hrest (hsmall.trans (by norm_num))).2
  rw [abs_le] at hnear ⊢
  rw [hvalue] at hnear hsmall
  rw [micros]
  constructor <;> linarith

theorem micros_of_lt_one (hx : Unsigned x) (hone : magnitude x < 1) :
    micros x = magnitude (unit * x) := by
  obtain ⟨hrest, hvalue⟩ := sub_floor hx
  have hfloor : ⌊magnitude x⌋₊ = 0 := Nat.floor_eq_zero.mpr hone
  rw [hfloor] at hrest hvalue
  rw [Nat.cast_zero (R := ℚ), sub_zero (G := ℚ)] at hvalue
  rw [micros, hfloor, Nat.cast_zero, mul_zero, zero_add]
  exact congrArg (fun y => magnitude (unit * y)) (eq_of_magnitude hrest hx hvalue)

theorem floor_le_micros (x : Float) : 3600000000 * (⌊magnitude x⌋₊ : ℚ) ≤ micros x :=
  le_add_of_nonneg_right (magnitude_nonneg _)

/-- The length of time of `x` hours is the whole number of microseconds that is nearest. -/
theorem hours_eq (hx : Unsigned x) :
    ∃ k : ℕ, Duration.hours (.double x) = Duration.ofMicros k ∧ |k - micros x| ≤ 1 / 2 ∧
      (k = 0 ↔ micros x ≤ 1 / 2) := by
  have hsmall := (rest_lt_one hx).trans (by norm_num : (1 : ℚ) < 2 ^ 100)
  obtain ⟨⟨m, e, hm⟩, -⟩ := unit_mul_near (sub_floor hx).1 hsmall
  obtain ⟨hden, hquotient⟩ := ratio_spec m e
  have hd : (0 : ℚ) < (ratio m e).2 := by exact_mod_cast hden
  obtain ⟨num, hnum⟩ : ∃ num, num = ⌊magnitude x⌋₊ * 3600000000 * (ratio m e).2 + (ratio m e).1 :=
    ⟨_, rfl⟩
  have htotal : (num / (ratio m e).2 : ℚ) = micros x := by
    rw [micros, magnitude_eq hm, ← hquotient, hnum]
    push_cast
    field_simp
  refine ⟨roundQuotient num (ratio m e).2, ?_, ?_, ?_⟩
  · have hpart : Binary64.ofInt ((3600000000 : ℕ) : ℤ) * (x - Binary64.ofInt ⌊magnitude x⌋₊) =
        unit * (x - Binary64.ofInt ⌊magnitude x⌋₊) := rfl
    have hsigned : signed false (ratio m e).1 = (ratio m e).1 := rfl
    rw [Duration.hours, Duration.ofUnits, Number.truncate_floor hx]
    dsimp only
    rw [hpart, Number.ratio?]
    dsimp only
    rw [hm, Option.getD_some, hsigned]
    dsimp only
    rw [Duration.roundToEven, if_neg (not_lt.mpr (by positivity)), hnum]
    rfl
  · rw [← htotal]
    exact roundQuotient_abs _ hden
  · rw [roundQuotient_zero_iff hden, htotal]

theorem magnitude_gap (hx : Unsigned x) (h : magnitude x < 24000000000) :
    magnitude x ≤ 24000000000 - 1 / 2 ^ 18 := by
  obtain ⟨m, e, hm⟩ := hx
  have hc : Canonical (24000000000 * 2 ^ 18) (-18) :=
    ⟨by norm_num, by norm_num, by norm_num, by norm_num⟩
  have hlimit : ((24000000000 * 2 ^ 18 : ℕ) : ℚ) * 2 ^ (-18 : ℤ) = 24000000000 := by norm_num
  rw [magnitude_eq hm] at h ⊢
  rw [← hlimit] at h
  have := (decode_finite hm).1.le_pred hc (by norm_num) h
  norm_num at this ⊢
  exact this

theorem micros_lt_iff (hx : Unsigned x) {k : ℕ} (hk : |k - micros x| ≤ 1 / 2) :
    k < 86400000000000000000 ↔ magnitude x < 24000000000 := by
  have hnear := micros_near hx
  rw [abs_le] at hk hnear
  constructor
  · intro hlt
    by_contra hge
    have hfloor : 24000000000 ≤ ⌊magnitude x⌋₊ := Nat.le_floor (by exact_mod_cast not_lt.mp hge)
    have hfloor' : (24000000000 : ℚ) ≤ ⌊magnitude x⌋₊ := by exact_mod_cast hfloor
    have hmicros := floor_le_micros x
    have hlt' : (k : ℚ) + 1 ≤ 86400000000000000000 := by exact_mod_cast hlt
    linarith
  · intro hlt
    have hgap := magnitude_gap hx hlt
    have : (k : ℚ) < 86400000000000000000 := by linarith
    exact_mod_cast this

/-- A length of time is less than a microsecond from the number of hours. -/
theorem hours_near (hx : Unsigned x) {d : Duration} (h : Duration.hours (.double x) = .ok d) :
    |(d.micros : ℚ) - 3600000000 * magnitude x| < 1 := by
  obtain ⟨k, hk, hrounded, -⟩ := hours_eq hx
  have hmicros := Duration.micros_of_ofMicros (hk.symm.trans h)
  have hnear := micros_near hx
  rw [hmicros, Int.cast_natCast]
  rw [abs_le] at hrounded hnear
  rw [abs_lt]
  constructor <;> linarith

end Hours

/-- Hours that make more than half a microsecond and less than a billion days. -/
def Usable (x : Float) : Prop :=
  0.5 < 3600000000.0 * x ∧ x < 24000000000.0

instance (x : Float) : Decidable (Usable x) :=
  inferInstanceAs (Decidable (_ ∧ _))

namespace Hours

theorem unit_eq : 3600000000.0 = unit := by
  have hdecode : decode 3600000000.0 = .finite false (3600000000 * 2 ^ 21) (-21) := by
    decide +kernel
  apply eq_of_magnitude ⟨_, _, hdecode⟩ ⟨_, _, decode_unit⟩
  rw [magnitude_eq hdecode, magnitude_eq decode_unit]

theorem usable_iff_micros (hx : Unsigned x) :
    Usable x ↔ 1 / 2 < micros x ∧ magnitude x < 24000000000 := by
  have hhalf : decode 0.5 = .finite false (2 ^ 52) (-53) := by decide +kernel
  have hlimit : decode 24000000000.0 = .finite false (24000000000 * 2 ^ 18) (-18) := by
    decide +kernel
  have hmagnitude : magnitude 24000000000.0 = 24000000000 := by
    rw [magnitude_eq hlimit]
    norm_num
  have hmagnitude' : magnitude 0.5 = 1 / 2 := by
    rw [magnitude_eq hhalf]
    norm_num
  rw [Usable, unit_eq, lt_iff_magnitude hx ⟨_, _, hlimit⟩, hmagnitude]
  apply and_congr_left
  intro hlt
  obtain ⟨hunsigned, hnear⟩ := unit_mul_near hx (hlt.trans (by norm_num))
  rw [lt_iff_magnitude ⟨_, _, hhalf⟩ hunsigned, hmagnitude']
  rcases lt_or_ge (magnitude x) 1 with hone | hone
  · rw [micros_of_lt_one hx hone]
  · -- From an hour on both are far above the half.
    have hmicros := micros_near hx
    rw [abs_le] at hnear hmicros
    exact iff_of_true (by linarith) (by linarith)

theorem hours_fault {fault : Number.Fault} (h : (Number.double x).truncate = .error fault) :
    ¬ ∃ d, Duration.hours (.double x) = .ok d ∧ 0 < d.micros := by
  rintro ⟨d, hd, -⟩
  rw [Duration.hours, Duration.ofUnits, h] at hd
  cases hd

theorem hours_pos_iff (h : ¬ x ≤ 0.0) :
    (∃ d, Duration.hours (.double x) = .ok d ∧ 0 < d.micros) ↔ Usable x := by
  rcases unsigned_of_not_le h with hx | hx | hx
  · obtain ⟨k, hk, hnear, hzero⟩ := hours_eq hx
    rw [hk, Duration.ofMicros_natCast, usable_iff_micros hx, micros_lt_iff hx hnear,
      Nat.pos_iff_ne_zero, Ne, hzero, not_le]
  · have hfault : (Number.double x).truncate = .error .infiniteInteger := by
      rw [Number.truncate, hx]
    have hlarge : ¬ infinity false < 24000000000.0 := by decide +kernel
    rw [← decode_infinite hx] at hlarge
    exact iff_of_false (hours_fault hfault) fun hu => hlarge hu.2
  · have hfault : (Number.double x).truncate = .error .notANumberInteger := by
      rw [Number.truncate, hx]
    have hnone : ¬ notANumber < 24000000000.0 := by decide +kernel
    rw [← decode_notANumber hx] at hnone
    exact iff_of_false (hours_fault hfault) fun hu => hnone hu.2

end Hours

namespace Settings

/-- The variable for the age is set to a text that is read as the number `x`. -/
def Sets (s : Settings) (x : Float) : Prop :=
  ∃ text, s.maxAgeHours = some text ∧ Decimal.readLoose? text.toList = some x

theorem lifetimeHours?_eq_some {s : Settings} :
    s.lifetimeHours? = some x ↔ s.Sets x ∧ ¬ x ≤ 0.0 := by
  rw [lifetimeHours?, Sets]
  cases s.maxAgeHours with
  | none => simp
  | some text =>
    cases hread : Decimal.readLoose? text.toList with
    | none => simp [hread]
    | some y =>
      by_cases hle : y ≤ 0.0
      · simp only [Option.bind_eq_bind, Option.bind_some, hread, if_pos hle]
        constructor
        · exact fun h => nomatch h
        · rintro ⟨⟨_, h, hx⟩, hpos⟩
          cases h
          cases hread.symm.trans hx
          exact absurd hle hpos
      · simp only [Option.bind_eq_bind, Option.bind_some, hread, if_neg hle]
        constructor
        · rintro ⟨⟩
          exact ⟨⟨text, rfl, hread⟩, hle⟩
        · rintro ⟨⟨_, h, hx⟩, -⟩
          cases h
          exact hread.symm.trans hx

/-- The length of time is more than none exactly if the number that is set can be used for one or is
zero or less, which leaves a day as what is no number does. -/
theorem lifetime_pos_iff (s : Settings) :
    ((∃ d, s.lifetime = .ok d ∧ 0 < d.micros) ↔ ∀ x, s.Sets x → x ≤ 0.0 ∨ Usable x) ∧
      ((∀ x, s.Sets x → x ≤ 0.0) → s.lifetime = .ok Duration.day) := by
  rw [lifetime]
  cases hhours : s.lifetimeHours? with
  | none =>
    have hle (x : Float) (hx : s.Sets x) : x ≤ 0.0 := by
      by_contra hpos
      have := lifetimeHours?_eq_some.mpr ⟨hx, hpos⟩
      rw [hhours] at this
      cases this
    exact ⟨iff_of_true ⟨_, rfl, by decide⟩ fun x hx => .inl (hle x hx), fun _ => rfl⟩
  | some y =>
    obtain ⟨hy, hpos⟩ := lifetimeHours?_eq_some.mp hhours
    refine ⟨(Hours.hours_pos_iff hpos).trans ⟨fun husable x hx => ?_, fun h => ?_⟩, fun h => ?_⟩
    · by_cases hle : x ≤ 0.0
      · exact .inl hle
      · have hsame := lifetimeHours?_eq_some.mpr ⟨hx, hle⟩
        rw [hhours] at hsame
        cases hsame
        exact .inr husable
    · exact (h y hy).resolve_left hpos
    · exact absurd (h y hy) hpos

theorem lifetime_pos_iff_twelve :
    (∃ d, lifetime { maxAgeHours := some "12" } = .ok d ∧ 0 < d.micros) ∧
      lifetime { maxAgeHours := some "soon" } = .ok Duration.day := by
  have hread : Decimal.readLoose? "12".toList = some 12.0 := by decide +kernel
  have hnone : Decimal.readLoose? "soon".toList = none := by decide +kernel
  refine ⟨(lifetime_pos_iff _).1.mpr ?_, (lifetime_pos_iff _).2 ?_⟩
  · rintro x ⟨_, ⟨⟩, hx⟩
    rw [hread] at hx
    cases hx
    exact .inr (by decide +kernel)
  · rintro x ⟨_, ⟨⟩, hx⟩
    rw [hnone] at hx
    cases hx

theorem lifetime_nan : ¬ ∀ s : Settings, ∃ d, s.lifetime = .ok d ∧ 0 < d.micros := by
  intro h
  obtain ⟨d, hd, -⟩ := h { maxAgeHours := some "nan" }
  have hfault : lifetime { maxAgeHours := some "nan" } =
      .error (.number .notANumberInteger) := by rfl
  rw [hfault] at hd
  cases hd

end Settings

end JavaProfile
