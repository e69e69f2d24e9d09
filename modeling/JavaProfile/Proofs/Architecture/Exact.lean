import Mathlib.Data.Option.NAry
import Mathlib.Data.Rat.Cast.Order
import Mathlib.Tactic.Linarith
import Mathlib.Tactic.Positivity
import JavaProfile.Architecture.Score
import JavaProfile.Proofs.Architecture.Decision
import JavaProfile.Proofs.Architecture.Module
import JavaProfile.Proofs.Greatest

/-!
Scores as quotients, also where a division by zero leaves a quotient undefined. However undefined
values compare with others, nothing is ever divided by zero, every score is a share, and of a
project with main files the style is the first of those with the greatest score, which is positive.
-/

namespace JavaProfile

/-- A quotient, or nothing after a division by zero. -/
def CheckedRat : Type := Option ℚ

namespace CheckedRat

def of (x : ℚ) : CheckedRat := some x

instance : Add CheckedRat := ⟨Option.map₂ (· + ·)⟩

instance : Sub CheckedRat := ⟨Option.map₂ (· - ·)⟩

instance : Mul CheckedRat := ⟨Option.map₂ (· * ·)⟩

instance : Div CheckedRat :=
  ⟨fun a b => Option.bind b fun y => if y = 0 then none else Option.map (· / y) a⟩

instance : NatCast CheckedRat := ⟨fun n => of n⟩

@[simp]
theorem of_add (x y : ℚ) : of x + of y = of (x + y) := rfl

@[simp]
theorem of_sub (x y : ℚ) : of x - of y = of (x - y) := rfl

@[simp]
theorem of_mul (x y : ℚ) : of x * of y = of (x * y) := rfl

@[simp]
theorem natCast_eq (n : ℕ) : (n : CheckedRat) = of n := rfl

theorem of_div (x : ℚ) {y : ℚ} (h : y ≠ 0) : of x / of y = of (x / y) := by
  change (if y = 0 then none else _) = _
  rw [if_neg h]
  rfl

theorem of_ite (p : Prop) [Decidable p] (x y : ℚ) :
    (if p then of x else of y) = of (if p then x else y) :=
  (apply_ite of p x y).symm

end CheckedRat

namespace Confidence

open CheckedRat

@[simp]
theorem checked_percent (n : ℕ) : (percent n : CheckedRat) = of (percent n) := by
  rw [percent, natCast_eq, natCast_eq, of_div _ (by norm_num)]
  rfl

@[simp]
theorem checked_zero : (zero : CheckedRat) = of zero := rfl

@[simp]
theorem checked_one : (one : CheckedRat) = of one := rfl

section Comparison

variable [LT CheckedRat] [DecidableLT CheckedRat] (hlt : ∀ x y : ℚ, of x < of y ↔ x < y)

include hlt

theorem checked_least (x y : ℚ) : least (of x) (of y) = of (least x y) := by
  simp only [least, hlt, of_ite]

theorem checked_greatest (x y : ℚ) : greatest (of x) (of y) = of (greatest x y) := by
  simp only [greatest, hlt, of_ite]

theorem checked_clamp (x : ℚ) : clamp (of x) = of (clamp x) := by
  rw [clamp, checked_one, checked_least hlt, checked_zero, checked_greatest hlt]
  rfl

theorem checked_sampleShare (size : ℕ) :
    (sampleShare size : CheckedRat) = of (sampleShare size) := by
  have hsample : (optimalSample : ℚ) ≠ 0 := by norm_num [optimalSample]
  rw [sampleShare, natCast_eq, natCast_eq, of_div _ hsample, checked_one, checked_least hlt,
    checked_zero, of_ite]
  rfl

theorem checked_ofSignal (signal : ℚ) (size : ℕ) (consistency : ℚ) :
    ofSignal (of signal) size (of consistency) = of (ofSignal signal size consistency) := by
  simp only [ofSignal, weigh, checked_sampleShare hlt, checked_percent, of_mul, of_add,
    checked_clamp hlt]

theorem checked_ofStyle (matching total : ℕ) (distinctive : Bool) (ambiguity : ℚ) :
    ofStyle matching total distinctive (of ambiguity) =
      of (ofStyle matching total distinctive ambiguity) := by
  rw [ofStyle, ofStyle]
  split
  · rfl
  · next hne =>
    have htotal : (total : ℚ) ≠ 0 := Nat.cast_ne_zero.mpr hne
    simp only [adjust, natCast_eq, of_div _ htotal, checked_one, of_sub, checked_ofSignal hlt,
      checked_percent, of_add, of_mul, of_ite, checked_clamp hlt]

end Comparison

end Confidence

namespace Scan

open CheckedRat Confidence

theorem checked_share (part : ℕ) {total : ℕ} (h : total ≠ 0) :
    (share part total : CheckedRat) = of (share part total) := by
  rw [share, natCast_eq, natCast_eq, of_div _ (Nat.cast_ne_zero.mpr h)]
  rfl

theorem checked_raiseFor (first second : Bool) (x : ℚ) :
    raiseFor first second (of x) = of (raiseFor first second x) := by
  simp only [raiseFor, checked_percent, of_add, of_ite]

theorem size_ne_zero_of_module {s : Scan} {m : String} (h : m ∈ s.featureModules) : s.size ≠ 0 := by
  obtain ⟨-, f, hf, -⟩ := mem_featureModules.mp h
  exact (List.length_pos_of_mem hf).ne'

variable [LT CheckedRat] [DecidableLT CheckedRat] (hlt : ∀ x y : ℚ, of x < of y ↔ x < y)

include hlt

theorem checked_layeredScore (s : Scan) : (s.layeredScore : CheckedRat) = of s.layeredScore := by
  rw [layeredScore, layeredScore]
  split
  · rfl
  · next hsize =>
    have htwo : ((2 : ℕ) : ℚ) ≠ 0 := by norm_num
    simp only [layerCoverage, checked_share _ (show 4 ≠ 0 by decide), checked_share _ hsize,
      checked_one, checked_least hlt, of_add, natCast_eq, of_div _ htwo, checked_ofSignal hlt]

theorem checked_featureScore (s : Scan) : (s.featureScore : CheckedRat) = of s.featureScore := by
  rw [featureScore, featureScore]
  dsimp only
  split
  · rfl
  · next hmodules =>
    have htwo : 2 ≤ s.featureModules.length := by omega
    have hlength : s.featureModules.length ≠ 0 := by omega
    have hsize : s.size ≠ 0 := size_ne_zero_of_module (List.getElem_mem htwo)
    simp only [discount, checked_share _ hlength, checked_share _ hsize, checked_percent,
      checked_one, of_sub, hlt, checked_ofStyle hlt, checked_raiseFor, of_mul, of_add,
      checked_clamp hlt]

theorem checked_hexagonalScore (s : Scan) :
    (s.hexagonalScore : CheckedRat) = of s.hexagonalScore := by
  rw [hexagonalScore, hexagonalScore]
  dsimp only
  split
  · rfl
  · simp only [checked_share _ (show hexagonalParts.length ≠ 0 by decide), checked_ofSignal hlt]

theorem checked_cleanScore (s : Scan) : (s.cleanScore : CheckedRat) = of s.cleanScore := by
  rw [cleanScore, cleanScore]
  dsimp only
  split
  · rfl
  · simp only [checked_share _ (show cleanParts.length ≠ 0 by decide),
      checked_share _ (show cleanSupport.length ≠ 0 by decide), checked_percent, of_mul, of_add,
      checked_ofSignal hlt, of_ite, checked_clamp hlt]

theorem checked_modularScore (s : Scan) : (s.modularScore : CheckedRat) = of s.modularScore := by
  rw [modularScore, modularScore]
  split
  · rfl
  · simp only [checked_share _ (show modularParts.length ≠ 0 by decide), checked_percent,
      checked_ofSignal hlt]

theorem checked_flatScore (s : Scan) : (s.flatScore : CheckedRat) = of s.flatScore := by
  rw [flatScore, flatScore]
  split
  · rfl
  · simp only [checked_one, checked_ofSignal hlt]

theorem checked_score (s : Scan) (a : Architecture) :
    (s.score a : CheckedRat) = of (s.score a) := by
  cases a with
  | layered => exact s.checked_layeredScore hlt
  | feature => exact s.checked_featureScore hlt
  | hexagonal => exact s.checked_hexagonalScore hlt
  | clean => exact s.checked_cleanScore hlt
  | modular => exact s.checked_modularScore hlt
  | flat => exact s.checked_flatScore hlt
  | unknown => rfl

end Scan

namespace Confidence

theorem zero_eq : (zero : ℚ) = 0 :=
  Nat.cast_zero

theorem one_eq : (one : ℚ) = 1 :=
  Nat.cast_one

theorem least_eq (a b : ℚ) : least a b = min a b := by
  rw [least, min_comm, min_def_lt]

theorem greatest_eq (a b : ℚ) : greatest a b = max a b := by
  rw [greatest, max_def_lt]

theorem clamp_eq (x : ℚ) : clamp x = max 0 (min 1 x) := by
  rw [clamp, greatest_eq, least_eq, zero_eq, one_eq]

theorem clamp_bounds (x : ℚ) : 0 ≤ clamp x ∧ clamp x ≤ 1 := by
  rw [clamp_eq]
  constructor
  · exact le_max_left _ _
  · exact max_le zero_le_one (min_le_left _ _)

theorem clamp_pos {x : ℚ} (h : 0 < x) : 0 < clamp x := by
  rw [clamp_eq]
  exact lt_max_of_lt_right (lt_min one_pos h)

theorem sampleShare_pos {size : ℕ} (h : size ≠ 0) : 0 < (sampleShare size : ℚ) := by
  have hsize : (0 : ℚ) < size := by exact_mod_cast Nat.pos_of_ne_zero h
  rw [sampleShare, if_neg h, least_eq, one_eq]
  exact lt_min (div_pos hsize (by norm_num [optimalSample])) one_pos

theorem ofSignal_pos {signal consistency : ℚ} {size : ℕ} (hsignal : 0 ≤ signal) (hsize : size ≠ 0)
    (hconsistency : 0 ≤ consistency) : 0 < ofSignal signal size consistency := by
  have hsample := sampleShare_pos hsize
  apply clamp_pos
  simp only [percent]
  positivity

end Confidence

namespace Scan

open Confidence

theorem score_bounds (s : Scan) (a : Architecture) : 0 ≤ (s.score a : ℚ) ∧ s.score a ≤ (1 : ℚ) := by
  rcases s.score_eq_zero_or_clamp a (α := ℚ) with h | ⟨x, h⟩
  · simp [h, zero_eq]
  · rw [h]
    exact clamp_bounds x

theorem layeredScore_pos {s : Scan} (h : s.mainFiles ≠ []) : 0 < (s.layeredScore : ℚ) := by
  have hsize : s.size ≠ 0 := fun hzero => h (List.length_eq_zero_iff.mp hzero)
  have hcoverage : 0 ≤ (s.layerCoverage : ℚ) := by
    rw [layerCoverage, least_eq, one_eq, share]
    positivity
  rw [layeredScore, if_neg hsize]
  apply ofSignal_pos _ hsize hcoverage
  rw [share]
  positivity

end Scan

namespace Decision

theorem best_eq (score : Architecture → ℚ) :
    best score = greatestFrom score .layered [.feature, .hexagonal, .clean, .modular, .flat] := by
  rw [best, Architecture.ranking, ← greatestFrom, greatestFrom_cons, if_neg (lt_irrefl _)]

theorem le_best (score : Architecture → ℚ) :
    ∀ a ∈ Architecture.ranking, score a ≤ score (best score) := by
  rw [best_eq]
  exact le_greatestFrom score .layered _

/-- Where there are main files, some style has a positive score. -/
theorem score_best_pos {s : Scan} (h : s.mainFiles ≠ []) :
    0 < (s.score (best fun a => (s.score a : ℚ)) : ℚ) :=
  (s.layeredScore_pos h).trans_le (le_best (fun a => (s.score a : ℚ)) .layered (by decide))

theorem ofScan_eq {s : Scan} (h : s.mainFiles ≠ []) :
    let d : Decision ℚ := Decision.ofScan s
    d.architecture = (best fun a => (s.score a : ℚ)) ∧ d.confidence = s.score d.architecture ∧
      d.scores = s.scores := by
  have hpos := score_best_pos h
  rw [← Confidence.zero_eq] at hpos
  dsimp only
  rw [ofScan, if_neg h]
  dsimp only
  rw [if_pos hpos]
  exact ⟨rfl, rfl, rfl⟩

/-- No score divides by zero, however undefined quotients compare, and each is from 0 to 1. The
style of a project with main files is the first of those with the greatest score, which is positive
and its confidence. -/
theorem first_greatest (s : Scan) :
    (∀ a, (∀ [LT CheckedRat] [DecidableLT CheckedRat],
        (∀ x y : ℚ, CheckedRat.of x < CheckedRat.of y ↔ x < y) →
        (s.score a : CheckedRat) = CheckedRat.of (s.score a)) ∧
      0 ≤ (s.score a : ℚ) ∧ (s.score a : ℚ) ≤ 1) ∧
    (s.mainFiles ≠ [] →
      let d : Decision ℚ := Decision.ofScan s
      ∃ before after, Architecture.ranking = before ++ d.architecture :: after ∧
        (∀ a ∈ before, (s.score a : ℚ) < s.score d.architecture) ∧
        (∀ a ∈ after, (s.score a : ℚ) ≤ s.score d.architecture) ∧
        d.confidence = s.score d.architecture ∧ 0 < d.confidence ∧ d.scores = s.scores) := by
  constructor
  · intro a
    exact ⟨fun hlt => s.checked_score hlt a, s.score_bounds a⟩
  · intro h
    obtain ⟨harchitecture, hconfidence, hscores⟩ := ofScan_eq h
    have hpos := score_best_pos h
    have hle := le_best fun a => (s.score a : ℚ)
    obtain ⟨before, after, heq, hbefore⟩ := greatestFrom_split (fun a => (s.score a : ℚ)) .layered
      [.feature, .hexagonal, .clean, .modular, .flat]
    rw [← best_eq, ← harchitecture] at heq hbefore
    rw [← harchitecture] at hpos hle
    refine ⟨before, after, heq, hbefore, ?_, hconfidence, ?_, hscores⟩
    · intro a ha
      apply hle
      rw [Architecture.ranking, heq]
      simp [ha]
    · rw [hconfidence]
      exact hpos

/-- Adapters and domain of a project, below a package that is not the base package. -/
def apart : Scan where
  mainFiles :=
    [{ path := "src/main/java/shop/domain/Order.java", package := "shop.domain",
       className := "Order", category := .entity },
     { path := "src/main/java/shop/adapter/Orders.java", package := "shop.adapter",
       className := "Orders", category := .controller },
     { path := "src/main/java/shop/port/OrderPort.java", package := "shop.port",
       className := "OrderPort" }]
  basePackage := "bank"

/-- Undefined quotients taken to be smaller than all others. -/
instance : LT CheckedRat := inferInstanceAs (LT (Option ℚ))

instance : DecidableLT CheckedRat :=
  inferInstanceAs (DecidableRel (Option.lt fun x y : ℚ => x < y))

theorem first_greatest_apart :
    apart.mainFiles ≠ [] ∧
      (Decision.ofScan apart : Decision ℚ).architecture = .hexagonal ∧
      (∃ before after, Architecture.ranking = before ++ .hexagonal :: after ∧
        (∀ a ∈ before, (apart.score a : ℚ) < apart.score .hexagonal) ∧
        ∀ a ∈ after, (apart.score a : ℚ) ≤ apart.score .hexagonal) ∧
      0 < (Decision.ofScan apart : Decision ℚ).confidence ∧
      (∀ x y : ℚ, CheckedRat.of x < CheckedRat.of y ↔ x < y) ∧
      (apart.score .hexagonal : CheckedRat) = CheckedRat.of (apart.score .hexagonal) := by
  have hfiles : apart.mainFiles ≠ [] := by decide
  have hexagonal : (Decision.ofScan apart : Decision ℚ).architecture = .hexagonal := by
    decide +kernel
  obtain ⟨hscores, hdecision⟩ := first_greatest apart
  obtain ⟨before, after, heq, hbefore, hafter, -, hpos, -⟩ := hdecision hfiles
  rw [hexagonal] at heq hbefore hafter
  have hlt (x y : ℚ) : CheckedRat.of x < CheckedRat.of y ↔ x < y := Option.some_lt_some
  exact ⟨hfiles, hexagonal, ⟨before, after, heq, hbefore, hafter⟩, hpos, hlt,
    (hscores .hexagonal).1 hlt⟩

end Decision

end JavaProfile
