import Mathlib.Tactic.Common
import JavaProfile.Architecture.Decision

/-!
The confidence of a decision is a share: a double from 0 to 1.
-/

namespace JavaProfile

theorem Float.le_of_lt {a b : Float} (h : a < b) : a ≤ b := by
  have hlt : a.toModel.unpack.compare b.toModel.unpack = some .lt := by
    have heq : (a.toModel.unpack.compare b.toModel.unpack == some .lt) = true :=
      of_decide_eq_true h
    simpa using heq
  have hle : (a.toModel.unpack.compare b.toModel.unpack).any (·.isLE) = true := by
    rw [hlt]
    rfl
  exact decide_eq_true hle

theorem Float.not_lt_zero {x : Float} (h : 0.0 ≤ x) : ¬x < 0.0 := by
  have hzero : (0.0 : Float).toModel.unpack = .zero .positive := by rfl
  have hle : ((0.0 : Float).toModel.unpack.compare x.toModel.unpack).any (·.isLE) = true :=
    of_decide_eq_true h
  intro hlt
  have hlt' : (x.toModel.unpack.compare (0.0 : Float).toModel.unpack == some .lt) = true :=
    of_decide_eq_true hlt
  rw [hzero] at hle hlt'
  generalize x.toModel.unpack = f at hle hlt'
  cases f with
  | notANumber => cases hle
  | zero sign => cases hlt'
  | infinity sign => cases sign <;> [cases hle; cases hlt']
  | finite sign m e hm => cases sign <;> [cases hle; cases hlt']

/-- A double from 0 to 1. -/
def IsShare (x : Float) : Prop :=
  0.0 ≤ x ∧ x ≤ 1.0

namespace Confidence

theorem isShare_zero : IsShare zero := by
  constructor <;> decide

theorem isShare_one : IsShare one := by
  constructor <;> decide

theorem isShare_clamp (x : Float) : IsShare (clamp x) := by
  have hzero : (zero : Float) = 0.0 := by rfl
  have hone : (one : Float) = 1.0 := by rfl
  have hleast : least one x ≤ 1.0 := by
    rw [least]
    split
    · next hlt =>
      rw [← hone]
      exact Float.le_of_lt hlt
    · exact isShare_one.2
  rw [clamp, greatest]
  split
  · next hlt =>
    rw [hzero] at hlt
    exact ⟨Float.le_of_lt hlt, hleast⟩
  · exact isShare_zero

end Confidence

namespace Scan

open Confidence

theorem zero_or_clamp {α : Type} [Add α] [Sub α] [Mul α] [Div α] [NatCast α] [LT α]
    [DecidableLT α] (P : Prop) [Decidable P] (x : α) :
    (if P then zero else clamp x) = (zero : α) ∨ ∃ y : α, (if P then zero else clamp x) = clamp y := by
  split
  · exact .inl rfl
  · exact .inr ⟨x, rfl⟩

theorem score_eq_zero_or_clamp {α : Type} [Add α] [Sub α] [Mul α] [Div α] [NatCast α] [LT α]
    [DecidableLT α] (s : Scan) (a : Architecture) :
    s.score a = (zero : α) ∨ ∃ x : α, s.score a = clamp x := by
  cases a with
  | layered | feature | hexagonal | clean | modular | flat => exact zero_or_clamp _ _
  | unknown => exact .inl rfl

theorem isShare_score (s : Scan) (a : Architecture) : IsShare (s.score a) := by
  rcases s.score_eq_zero_or_clamp a (α := Float) with h | ⟨x, h⟩
  · rw [h]
    exact isShare_zero
  · rw [h]
    exact isShare_clamp x

end Scan

namespace Decision

open Confidence

variable {s : Scan} {g : Architecture → Float}

theorem architecture_of_scores (hfiles : s.mainFiles ≠ []) (hscore : ∀ a, s.score a = g a)
    (hpos : zero < g (best g)) :
    (ofScan s : Decision Float).architecture = best g ∧
      (ofScan s : Decision Float).featureStyle =
        if best g = .feature then some (s.featureStyle s.featureModules) else none := by
  have hscores : (fun a => (s.score a : Float)) = g := funext hscore
  rw [ofScan, if_neg hfiles]
  dsimp only
  rw [hscores, hscore, if_pos hpos]
  exact ⟨rfl, rfl⟩

/-- Where no other style has a score, the style is layered, even if layers have none. -/
theorem architecture_of_layers (hscore : ∀ a ≠ .layered, s.score a = (zero : Float)) :
    (ofScan s : Decision Float).architecture = .layered := by
  have hlayered : ¬(s.score .layered < (zero : Float)) :=
    Float.not_lt_zero (s.isShare_score .layered).1
  have hbest : (best fun a => (s.score a : Float)) = .layered := by
    simp only [best, Architecture.ranking, List.foldl_cons, List.foldl_nil, hscore, ne_eq,
      reduceCtorEq, not_false_eq_true, hlayered, if_false, ite_self]
  rw [ofScan]
  split
  · rfl
  · dsimp only
    rw [hbest]
    split <;> rfl

end Decision

theorem Decision.isShare_confidence (s : Scan) :
    IsShare (Decision.ofScan s : Decision Float).confidence := by
  rw [ofScan]
  split
  · exact Confidence.isShare_one
  · dsimp only
    split
    · exact s.isShare_score _
    · exact Confidence.isShare_one

end JavaProfile
