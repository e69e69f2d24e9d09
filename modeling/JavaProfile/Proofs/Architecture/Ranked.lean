import JavaProfile.Proofs.Architecture.Decision
import JavaProfile.Proofs.Greatest
import JavaProfile.Proofs.Number.Order

/-!
Scores as doubles. They are ordered as the numbers that they stand for, so that the style of a
project with main files is the first of those with the greatest score, and no score is greater once
all are rounded.
-/

namespace JavaProfile

open Binary64

theorem Scan.unsigned_score (s : Scan) (a : Architecture) : Unsigned (s.score a) := by
  have hzero : (Confidence.zero : Float) = 0.0 := by rfl
  rcases s.score_eq_zero_or_clamp a (α := Float) with h | ⟨x, h⟩
  · rw [h, hzero]
    exact unsigned_zero
  · rw [h, Confidence.clamp, Confidence.greatest]
    split
    · next hlt =>
      have hone := (Confidence.isShare_clamp x).2
      rw [Confidence.clamp, Confidence.greatest, if_pos hlt] at hone
      exact unsigned_of_bounds hlt hone
    · rw [hzero]
      exact unsigned_zero

namespace Decision

variable {s : Scan} {score : Architecture → Float}

theorem best_eq_greatestFrom (h : ∀ a, Unsigned (score a)) :
    best score = greatestFrom (fun a => magnitude (score a)) .layered
      [.feature, .hexagonal, .clean, .modular, .flat] := by
  have hself : ¬ score .layered < score .layered := by
    rw [lt_iff_magnitude (h _) (h _)]
    exact lt_irrefl _
  rw [best, Architecture.ranking, List.foldl_cons, if_neg hself, greatestFrom]
  simp only [lt_iff_magnitude (h _) (h _)]

theorem best_split (h : ∀ a, Unsigned (score a)) :
    ∃ before after, Architecture.ranking = before ++ best score :: after ∧
      (∀ a ∈ before, score a < score (best score)) ∧
      ∀ a ∈ Architecture.ranking, score a ≤ score (best score) := by
  obtain ⟨before, after, heq, hbefore⟩ := greatestFrom_split (fun a => magnitude (score a))
    .layered [.feature, .hexagonal, .clean, .modular, .flat]
  have hle := le_greatestFrom (fun a => magnitude (score a)) .layered
    [.feature, .hexagonal, .clean, .modular, .flat]
  rw [← best_eq_greatestFrom h] at heq hbefore hle
  exact ⟨before, after, heq, fun a ha => (lt_iff_magnitude (h _) (h _)).mpr (hbefore a ha),
    fun a ha => (le_iff_magnitude (h _) (h _)).mpr (hle a ha)⟩

/-- Where no score is positive, the first style has the greatest all the same. -/
theorem ofScan_architecture (hfiles : s.mainFiles ≠ []) :
    (ofScan s : Decision Float).architecture = best fun a => (s.score a : Float) := by
  rw [ofScan, if_neg hfiles]
  dsimp only
  split
  · rfl
  · next hzero =>
    obtain ⟨before, after, heq, hbefore, -⟩ := best_split s.unsigned_score
    change ¬ (0.0 : Float) < _ at hzero
    rw [lt_iff_magnitude unsigned_zero (s.unsigned_score _), magnitude_zero] at hzero
    cases before with
    | nil => exact (List.cons.inj heq).1
    | cons a before =>
      have hlt := hbefore a List.mem_cons_self
      rw [lt_iff_magnitude (s.unsigned_score _) (s.unsigned_score _)] at hlt
      exact absurd ((magnitude_nonneg _).trans_lt hlt) hzero

end Decision

end JavaProfile
