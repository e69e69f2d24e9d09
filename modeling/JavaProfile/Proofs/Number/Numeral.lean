import JavaProfile.Number.Decimal
import JavaProfile.Number.Format
import JavaProfile.Proofs.Number.Shortest

/-!
Numerals and the doubles they stand for. Every written form of a finite double is a numeral, digits
with a fraction or an exponent, and the value of that numeral rounds to the double.
-/

namespace JavaProfile

open Binary64 (Canonical Near near_low near_high near_pos ofMagnitudeBits magnitudeBits ofRatio_near)

namespace Decimal

theorem ofDigits_append (a b : List Char) :
    ofDigits (a ++ b) = ofDigits a * 10 ^ b.length + ofDigits b := by
  have h : ofDigits (a ++ b) = Nat.ofDigitChars 10 b (ofDigits a) := by
    rw [ofDigits, List.foldl_append]
    rfl
  rw [h, Nat.ofDigitChars_eq_ofDigitChars_zero, Nat.mul_comm]
  rfl

theorem ofDigits_zeros (n : ℕ) : ofDigits (List.replicate n '0') = 0 := by
  have h : Nat.ofDigitChars 10 (List.replicate n '0') 0 = 10 ^ n * 0 :=
    Nat.ofDigitChars_replicate_zero
  rwa [Nat.mul_zero] at h

theorem ofDigits_toString (n : ℕ) : ofDigits (toString n).toList = n := by
  have h : (toString n).toList = Nat.toDigits 10 n := Nat.toList_repr
  rw [h]
  exact Nat.ofDigitChars_ten_toDigits

theorem two_zpow_lt_ten_zpow : (2 : ℚ) ^ (1080 : ℤ) < 10 ^ (400 : ℤ) := by
  have h : ((2 : ℚ) ^ 27) ^ 40 < (10 ^ 10) ^ 40 :=
    pow_lt_pow_left₀ (by norm_num) (by norm_num) (by norm_num)
  rwa [← pow_mul, ← pow_mul, ← zpow_natCast, ← zpow_natCast] at h

/-- The shortcut for small exponents is taken only below every double. -/
theorem small_of_shortcut {digits : ℕ} {exponent : ℤ}
    (h : exponent + (digits.log2 / 3 + 1 : ℕ) < -400) :
    (digits * 10 ^ exponent : ℚ) < 2 ^ (-1080 : ℤ) := by
  have hdigits : (digits : ℚ) < 10 ^ (digits.log2 / 3 + 1) := by
    have hlt : digits < 2 ^ (digits.log2 + 1) := Nat.lt_log2_self
    have hle : (2 : ℕ) ^ (digits.log2 + 1) ≤ 2 ^ (3 * (digits.log2 / 3 + 1)) :=
      Nat.pow_le_pow_right (by omega) (by omega)
    have hten : (2 : ℕ) ^ (3 * (digits.log2 / 3 + 1)) ≤ 10 ^ (digits.log2 / 3 + 1) := by
      rw [Nat.pow_mul]
      exact Nat.pow_le_pow_left (by omega) _
    exact_mod_cast hlt.trans_le (hle.trans hten)
  have hp : (0 : ℚ) < 10 ^ exponent := by positivity
  calc (digits * 10 ^ exponent : ℚ) ≤ 10 ^ (digits.log2 / 3 + 1) * 10 ^ exponent :=
        mul_le_mul_of_nonneg_right hdigits.le hp.le
    _ = 10 ^ (exponent + (digits.log2 / 3 + 1 : ℕ)) := by
        rw [← zpow_natCast, ← zpow_add₀ (by norm_num), add_comm]
    _ ≤ 10 ^ (-400 : ℤ) := zpow_le_zpow_right₀ (by norm_num) (by omega)
    _ < 2 ^ (-1080 : ℤ) := by
        rw [zpow_neg, zpow_neg]
        exact inv_strictAnti₀ (by positivity) two_zpow_lt_ten_zpow

theorem near_le {m : ℕ} {e : ℤ} {q : ℚ} (hc : Canonical m e) (h : Near m e q) :
    q ≤ 2 ^ (1080 : ℤ) := by
  have hmlt : (m : ℚ) < 2 ^ 53 := by exact_mod_cast hc.mantissa_lt
  calc q ≤ (m + 1 / 2) * 2 ^ e := (near_high h).1
    _ ≤ 2 ^ (54 : ℤ) * 2 ^ (971 : ℤ) := by
        apply mul_le_mul _ (zpow_le_zpow_right₀ (by norm_num) hc.greatest) (by positivity)
          (by positivity)
        have h54 : (2 : ℚ) ^ (54 : ℤ) = 2 ^ 53 + 2 ^ 53 := by norm_num
        rw [h54]
        linarith
    _ ≤ 2 ^ (1080 : ℤ) := by
        rw [← zpow_add₀ (by norm_num)]
        exact zpow_le_zpow_right₀ (by norm_num) (by norm_num)

theorem le_near {m : ℕ} {e : ℤ} {q : ℚ} (hc : Canonical m e) (hm : 0 < m) (h : Near m e q) :
    (2 : ℚ) ^ (-1080 : ℤ) ≤ q := by
  have hm1 : (1 : ℚ) ≤ m := by exact_mod_cast hm
  calc (2 : ℚ) ^ (-1080 : ℤ) ≤ 2 ^ (-1 : ℤ) * 2 ^ (-1074 : ℤ) := by
        rw [← zpow_add₀ (by norm_num)]
        exact zpow_le_zpow_right₀ (by norm_num) (by norm_num)
    _ = 1 / 2 * 2 ^ (-1074 : ℤ) := by rw [zpow_neg_one, one_div]
    _ ≤ (m - 1 / 2) * 2 ^ e := by
        apply mul_le_mul (by linarith) (zpow_le_zpow_right₀ (by norm_num) hc.least)
          (by positivity) (by linarith)
    _ ≤ q := (near_low hm h).1

theorem toFloat_near {m : ℕ} {e : ℤ} {d : Decimal} (hc : Canonical m e) (hm : 0 < m)
    (h : Near m e (d.digits * 10 ^ d.exponent)) :
    d.toFloat = ofMagnitudeBits d.negative (magnitudeBits m e) := by
  have hten := zpow_mul_toNat (b := 10) (by norm_num) d.exponent
  have hdigits : d.digits ≠ 0 := by
    intro hzero
    have hpos := near_pos hm h
    rw [hzero, Nat.cast_zero, zero_mul] at hpos
    exact hpos.false
  -- Neither shortcut is taken, as both are for numbers beyond all doubles.
  have hnotLarge : ¬ d.exponent > 400 := by
    intro hlarge
    have hone : (1 : ℚ) ≤ d.digits := by exact_mod_cast Nat.pos_of_ne_zero hdigits
    have hbound : (10 : ℚ) ^ (400 : ℤ) ≤ 2 ^ (1080 : ℤ) := by
      calc (10 : ℚ) ^ (400 : ℤ) ≤ 10 ^ d.exponent := zpow_le_zpow_right₀ (by norm_num) hlarge.le
        _ ≤ d.digits * 10 ^ d.exponent := le_mul_of_one_le_left (by positivity) hone
        _ ≤ 2 ^ (1080 : ℤ) := near_le hc h
    exact absurd hbound two_zpow_lt_ten_zpow.not_ge
  have hnotSmall : ¬ d.exponent + (d.digits.log2 / 3 + 1 : ℕ) < -400 :=
    fun hsmall => (small_of_shortcut hsmall).not_ge (le_near hc hm h)
  rw [toFloat, if_neg hdigits, if_neg hnotLarge, if_neg hnotSmall]
  split
  · next hexp =>
    apply ofRatio_near hc hm (by omega)
    rw [show (-d.exponent).toNat = 0 by omega, pow_zero, mul_one] at hten
    rw [tenTo_eq]
    push_cast
    rwa [div_one, ← hten]
  · next hexp =>
    apply ofRatio_near hc hm (tenTo_pos _)
    rw [show d.exponent.toNat = 0 by omega, pow_zero] at hten
    rw [tenTo_eq]
    push_cast
    rwa [div_eq_mul_inv, inv_eq_of_mul_eq_one_left hten]

end Decimal

/-! ### Numerals -/

/-- A number without its sign: digits, digits behind a point, and the sign and digits behind an
exponent mark. -/
structure Numeral where
  whole : List Char
  fraction : List Char
  exponent : Option (List Char × List Char)

namespace Numeral

def exponentText : Option (List Char × List Char) → List Char
  | none => []
  | some (sign, digits) => 'e' :: sign ++ digits

def text (n : Numeral) : List Char :=
  n.whole ++ ((if n.fraction = [] then [] else '.' :: n.fraction) ++ exponentText n.exponent)

def exponentValue : Option (List Char × List Char) → ℤ
  | none => 0
  | some (sign, digits) => Binary64.signed (sign = ['-']) (Decimal.ofDigits digits)

def decimal (n : Numeral) (negative : Bool) : Decimal where
  negative := negative
  digits := Decimal.ofDigits (n.whole ++ n.fraction)
  exponent := exponentValue n.exponent - n.fraction.length

/-- No zero stands in front of other digits, and the numeral is not an integer. -/
structure WellFormed (n : Numeral) : Prop where
  whole_digits : ∀ c ∈ n.whole, c.isDigit
  whole_start : n.whole = ['0'] ∨ ∃ c cs, n.whole = c :: cs ∧ c ≠ '0'
  fraction_digits : ∀ c ∈ n.fraction, c.isDigit
  exponent_digits : ∀ s ds, n.exponent = some (s, ds) →
    (s = [] ∨ s = ['-'] ∨ s = ['+']) ∧ ds ≠ [] ∧ ∀ c ∈ ds, c.isDigit
  inexact : n.fraction ≠ [] ∨ n.exponent.isSome

def value (n : Numeral) : ℚ :=
  Decimal.ofDigits (n.whole ++ n.fraction) *
    10 ^ (exponentValue n.exponent - n.fraction.length)

end Numeral

/-! ### The written forms -/

theorem toDigits_cons {n : ℕ} (hn : n ≠ 0) :
    ∃ c cs, Nat.toDigits 10 n = c :: cs ∧ c ≠ '0' := by
  induction n using Nat.strongRecOn with
  | ind n ih =>
    by_cases hlt : n < 10
    · exact ⟨n.digitChar, [], Nat.toDigits_of_lt_base hlt, by simpa using hn⟩
    · obtain ⟨c, cs, hcs, hc⟩ := ih (n / 10) (by omega) (by omega)
      rw [Nat.toDigits_of_base_le (by decide) (by omega), hcs]
      exact ⟨c, _, rfl, hc⟩

theorem digits_cons {n : ℕ} (hn : n ≠ 0) : ∃ c cs, (toString n).toList = c :: cs ∧ c ≠ '0' := by
  have h : (toString n).toList = Nat.toDigits 10 n := Nat.toList_repr
  rw [h]
  exact toDigits_cons hn

theorem digits_ne_nil (n : ℕ) : (toString n).toList ≠ [] := by
  have h : (toString n).toList = Nat.toDigits 10 n := Nat.toList_repr
  rw [h]
  exact Nat.toDigits_ne_nil

theorem isDigit_of_mem_digits {n : ℕ} {c : Char} (h : c ∈ (toString n).toList) : c.isDigit := by
  have heq : (toString n).toList = Nat.toDigits 10 n := Nat.toList_repr
  rw [heq] at h
  exact Nat.isDigit_of_mem_toDigits (by decide) (by decide) h

namespace NumberFormat

open Decimal (ofDigits ofDigits_append ofDigits_zeros ofDigits_toString)

theorem isDigit_of_mem_zeros {n : ℤ} {c : Char} (h : c ∈ zeros n) : c.isDigit := by
  rw [List.eq_of_mem_replicate h]
  rfl

theorem length_zeros (n : ℤ) : (zeros n).length = n.toNat :=
  List.length_replicate

theorem fraction_numeral {n : ℕ} {point : ℤ} (hpoint : point ≤ 0) :
    ∃ numeral : Numeral, numeral.WellFormed ∧
      numeral.text = '0' :: '.' :: zeros (-point) ++ (toString n).toList ∧
      numeral.value = n * 10 ^ (point - (toString n).toList.length) := by
  have hvalue := ofDigits_toString n
  refine ⟨⟨['0'], zeros (-point) ++ (toString n).toList, none⟩,
    ⟨by simp, .inl rfl, ?_, by simp, by simp⟩, ?_, ?_⟩
  · intro d hd
    rcases List.mem_append.mp hd with h | h
    · exact isDigit_of_mem_zeros h
    · exact isDigit_of_mem_digits h
  · simp [Numeral.text, Numeral.exponentText]
  · simp only [Numeral.value, Numeral.exponentValue]
    rw [← List.append_assoc, ofDigits_append, hvalue, List.singleton_append,
      show '0' :: zeros (-point) = List.replicate ((-point).toNat + 1) '0' from rfl,
      ofDigits_zeros, List.length_append, length_zeros, zero_mul, zero_add]
    congr 2
    omega

theorem whole_numeral {n : ℕ} (hn : n ≠ 0) {point : ℤ}
    (hlength : (toString n).toList.length ≤ point.toNat) :
    ∃ numeral : Numeral, numeral.WellFormed ∧
      numeral.text = (toString n).toList ++ zeros (point - (toString n).toList.length) ++ ['.', '0'] ∧
      numeral.value = n * 10 ^ (point - (toString n).toList.length) := by
  obtain ⟨c, cs, hcons, hc⟩ := digits_cons hn
  have hvalue := ofDigits_toString n
  refine ⟨⟨(toString n).toList ++ zeros (point - (toString n).toList.length), ['0'], none⟩,
    ⟨?_, .inr ⟨c, _, by rw [hcons]; rfl, hc⟩, by simp, by simp, by simp⟩, ?_, ?_⟩
  · intro d hd
    rcases List.mem_append.mp hd with h | h
    · exact isDigit_of_mem_digits h
    · exact isDigit_of_mem_zeros h
  · simp [Numeral.text, Numeral.exponentText]
  · have hpositive : 0 < (toString n).toList.length := List.length_pos_of_ne_nil (digits_ne_nil n)
    simp only [Numeral.value, Numeral.exponentValue]
    rw [List.append_assoc, ofDigits_append, hvalue, zeros, ← List.replicate_one,
      List.replicate_append_replicate, ofDigits_zeros, List.length_replicate, add_zero,
      List.length_replicate]
    push_cast
    rw [mul_assoc, ← zpow_natCast, ← zpow_add₀ (by norm_num)]
    congr 2
    omega

theorem split_numeral {n : ℕ} (hn : n ≠ 0) {point : ℤ} (hpoint : ¬ point ≤ 0)
    (hlength : ¬ (toString n).toList.length ≤ point.toNat) :
    ∃ numeral : Numeral, numeral.WellFormed ∧
      numeral.text =
        (toString n).toList.take point.toNat ++ '.' :: (toString n).toList.drop point.toNat ∧
      numeral.value = n * 10 ^ (point - (toString n).toList.length) := by
  obtain ⟨c, cs, hcons, hc⟩ := digits_cons hn
  have hdigit (d : Char) : d ∈ (toString n).toList → d.isDigit := isDigit_of_mem_digits
  have hvalue := ofDigits_toString n
  generalize (toString n).toList = digits at *
  have hrest : digits.drop point.toNat ≠ [] := by simpa using hlength
  refine ⟨⟨digits.take point.toNat, digits.drop point.toNat, none⟩,
    ⟨fun d hd => hdigit d (List.mem_of_mem_take hd), .inr ?_,
      fun d hd => hdigit d (List.mem_of_mem_drop hd), by simp, .inl hrest⟩, ?_, ?_⟩
  · obtain ⟨k, hk⟩ : ∃ k, point.toNat = k + 1 := ⟨point.toNat - 1, by omega⟩
    exact ⟨c, cs.take k, by rw [hcons, hk]; rfl, hc⟩
  · simp [Numeral.text, Numeral.exponentText, hrest]
  · simp only [Numeral.value, Numeral.exponentValue]
    rw [List.take_append_drop, hvalue, List.length_drop]
    congr 2
    omega

theorem positional_numeral {n : ℕ} (hn : n ≠ 0) (point : ℤ) :
    ∃ numeral : Numeral, numeral.WellFormed ∧
      numeral.text = positional (toString n).toList point ∧
      numeral.value = n * 10 ^ (point - (toString n).toList.length) := by
  unfold positional
  split
  · next hpoint => exact fraction_numeral hpoint
  · next hpoint =>
    split
    · next hlength => exact whole_numeral hn hlength
    · next hlength => exact split_numeral hn hpoint hlength

theorem exponentText_eq (f : NumberFormat) (e : ℤ) :
    ∃ sign digits, f.exponentText e = 'e' :: sign ++ digits ∧
      (sign = [] ∨ sign = ['-'] ∨ sign = ['+']) ∧ digits ≠ [] ∧ (∀ c ∈ digits, c.isDigit) ∧
      Binary64.signed (sign = ['-']) (ofDigits digits) = e := by
  have hzeros (k : ℤ) : ofDigits (zeros k ++ (toString e.natAbs).toList) = e.natAbs := by
    rw [ofDigits_append, zeros, ofDigits_zeros, ofDigits_toString]
    omega
  refine ⟨if e < 0 then ['-'] else if f.exponentPlus then ['+'] else [],
    zeros (f.exponentWidth - (toString e.natAbs).toList.length) ++ (toString e.natAbs).toList,
    ?_, ?_, ?_, ?_, ?_⟩
  · simp [exponentText]
  · split
    · simp
    · split <;> simp
  · simp
  · intro c hc
    rcases List.mem_append.mp hc with h | h
    · exact isDigit_of_mem_zeros h
    · exact isDigit_of_mem_digits h
  · rw [hzeros]
    by_cases he : e < 0
    · rw [if_pos he, Binary64.signed, if_pos (decide_eq_true rfl)]
      omega
    · have hsign : (if f.exponentPlus then ['+'] else []) ≠ ['-'] := by split <;> decide
      rw [if_neg he, Binary64.signed, if_neg (by simpa using hsign)]
      omega

theorem scientific_numeral (f : NumberFormat) {n : ℕ} (hn : n ≠ 0) (point : ℤ) :
    ∃ numeral : Numeral, numeral.WellFormed ∧
      numeral.text = f.scientific (toString n).toList point ∧
      numeral.value = n * 10 ^ (point - (toString n).toList.length) := by
  obtain ⟨c, cs, hcons, hc⟩ := digits_cons hn
  obtain ⟨sign, digits, htext, hsign, hne, hdigits, hexp⟩ := exponentText_eq f (point - 1)
  have hdigit (d : Char) : d ∈ (toString n).toList → d.isDigit := isDigit_of_mem_digits
  have hvalue := ofDigits_toString n
  rw [hcons] at hdigit hvalue ⊢
  refine ⟨⟨[c], cs, some (sign, digits)⟩, ⟨?_, .inr ⟨c, [], rfl, hc⟩, ?_, ?_, by simp⟩, ?_, ?_⟩
  · simpa using hdigit c (by simp)
  · exact fun d hd => hdigit d (by simp [hd])
  · rintro s ds ⟨⟩
    exact ⟨hsign, hne, hdigits⟩
  · cases cs with
    | nil => rw [scientific, htext]; rfl
    | cons d ds =>
      rw [scientific, htext]
      · rfl
      · simp
  · simp only [Numeral.value, Numeral.exponentValue, hexp]
    rw [List.singleton_append, hvalue, List.length_cons]
    congr 2
    omega

theorem magnitudeText_numeral (f : NumberFormat) (m : ℕ) (e : ℤ) :
    ∃ numeral : Numeral, numeral.WellFormed ∧ numeral.text = f.magnitudeText m e ∧
      numeral.value = (Shortest.decimal m e).1 * 10 ^ (Shortest.decimal m e).2 := by
  rw [magnitudeText]
  generalize Shortest.decimal m e = d
  obtain ⟨n, s⟩ := d
  dsimp only
  by_cases hn : n = 0
  · rw [if_pos hn, hn]
    refine ⟨⟨['0'], ['0'], none⟩, ⟨by simp, .inl rfl, by simp, by simp, by simp⟩, rfl, ?_⟩
    have hzero : ofDigits (['0'] ++ ['0']) = 0 := rfl
    simp only [Numeral.value]
    rw [hzero, Nat.cast_zero, zero_mul, zero_mul]
  · have hscale : (toString n).toList.length + s - ((toString n).toList.length : ℤ) = s := by omega
    rw [if_neg hn]
    split
    · have h := positional_numeral hn ((toString n).toList.length + s)
      rwa [hscale] at h
    · have h := scientific_numeral f hn ((toString n).toList.length + s)
      rwa [hscale] at h

/-- The digits written for a finite double stand for that double. -/
theorem toFloat_magnitudeText (f : NumberFormat) {x : Float} {negative : Bool} {m : ℕ} {e : ℤ}
    (h : Binary64.decode x = .finite negative m e) :
    ∃ numeral : Numeral, numeral.WellFormed ∧ numeral.text = f.magnitudeText m e ∧
      (numeral.decimal negative).toFloat = x := by
  obtain ⟨hc, hx⟩ := Binary64.decode_finite h
  obtain ⟨numeral, hwf, htext, hvalue⟩ := magnitudeText_numeral f m e
  refine ⟨numeral, hwf, htext, ?_⟩
  rw [hx]
  rcases Nat.eq_zero_or_pos m with rfl | hm
  · have hzero : numeral.value = 0 := by
      rw [hvalue, Shortest.decimal, if_pos rfl, Nat.cast_zero, zero_mul]
    have hdigits : (numeral.decimal negative).digits = 0 := by
      rcases mul_eq_zero.mp hzero with h0 | h0
      · exact_mod_cast h0
      · exact absurd h0 (by positivity)
    rw [Decimal.toFloat, if_pos hdigits, magnitudeBits, if_pos (by norm_num)]
    rfl
  · have hnear := Shortest.decimal_near hc hm
    rw [← hvalue] at hnear
    exact Decimal.toFloat_near (d := numeral.decimal negative) hc hm hnear

end NumberFormat

end JavaProfile
