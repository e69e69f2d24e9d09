/-!
Quotients rounded to the nearest natural number, a half going to the even neighbour.
-/

namespace JavaProfile

/-- `num / den` to the nearest natural number; halfway between two, the even one. -/
def roundQuotient (num den : Nat) : Nat :=
  let q := num / den
  let r := num % den
  if 2 * r < den then q
  else if 2 * r = den ∧ q % 2 = 0 then q
  else q + 1

/-- No natural number is nearer to `num / den` than half a unit away. -/
theorem roundQuotient_near (num : Nat) {den : Nat} (pos : 0 < den) :
    2 * (roundQuotient num den * den) ≤ 2 * num + den ∧
      2 * num ≤ 2 * (roundQuotient num den * den) + den := by
  have split := Nat.div_add_mod num den
  have small := Nat.mod_lt num pos
  have comm : num / den * den = den * (num / den) := Nat.mul_comm _ _
  unfold roundQuotient
  simp only
  split
  · omega
  · split
    · omega
    · rw [Nat.add_mul]; omega

theorem roundQuotient_mul (n : Nat) {den : Nat} (pos : 0 < den) :
    roundQuotient (n * den) den = n := by
  simp [roundQuotient, Nat.mul_div_cancel n pos, pos]

end JavaProfile
