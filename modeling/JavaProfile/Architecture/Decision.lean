import JavaProfile.Architecture.Score

/-!
The choice of an architecture style: the first of those with the greatest score.
-/

namespace JavaProfile

structure Decision (α : Type) where
  architecture : Architecture
  confidence : α
  /-- Empty when there was nothing to score. -/
  scores : List (Architecture × α) := []
  featureModules : List String := []
  featureStyle : Option FeatureStyle := none
  deriving Repr

namespace Decision

open Confidence (zero one)

variable {α : Type} [Add α] [Sub α] [Mul α] [Div α] [NatCast α] [LT α] [DecidableLT α]

/-- The style with the greatest score, the first of those that have it. -/
def best (score : Architecture → α) : Architecture :=
  Architecture.ranking.foldl (fun b a => if score b < score a then a else b) .layered

/-- A project without main files, or one that no style fits, is layered beyond doubt. -/
def ofScan (s : Scan) : Decision α :=
  if s.mainFiles = [] then { architecture := .layered, confidence := one }
  else
    let winner := best fun a => (s.score a : α)
    if (zero : α) < s.score winner then
      { architecture := winner
        confidence := s.score winner
        scores := s.scores
        featureModules := if winner = .feature then s.featureModules else []
        featureStyle := if winner = .feature then some (s.featureStyle s.featureModules) else none }
    else { architecture := .layered, confidence := one, scores := s.scores }

end Decision

end JavaProfile
