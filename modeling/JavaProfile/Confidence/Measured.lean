import JavaProfile.Confidence.Basic
import JavaProfile.Number.Basic

/-!
Confidence from numbers that are given rather than counted: integers of any size and doubles, of
which an operation may have no result.
-/

namespace JavaProfile.Confidence

open Number (Fault)

def clampTo (low high value : Number) : Number :=
  low.max (high.min value)

def sampleShareOf (size : Number) : Except Fault Float := do
  if size.le (.int 0) then return 0.0
  let share ← size.div (.int optimalSample)
  return least share 1.0

def calculate (signal size consistency : Number) : Except Fault Float := do
  let signal ← signal.toDouble
  let sample ← sampleShareOf size
  let consistency ← consistency.toDouble
  return weigh signal sample consistency

/-- The confidence of a fact that `matching` of `total` observations agree with. -/
def ofCounts (matching total : Number) : Except Fault Float := do
  if total.isZero then return 0.0
  let share ← matching.div total
  calculate (.double share) total (.double (consistencyOf share))

/-- The confidence of a style that shows in `matching` of `total` files. -/
def ofStyleCounts (matching total : Number) (distinctive : Bool) (ambiguity : Number) :
    Except Fault Float := do
  if total.isZero then return 0.0
  let share ← matching.div total
  let ambiguity ← ambiguity.toDouble
  let confidence ← calculate (.double share) total (.double (1.0 - ambiguity))
  return adjust confidence distinctive ambiguity

/-- The confidence of a pattern: each further variation of it divides its consistency. -/
def ofPattern (occurrences sample variations : Number) : Except Fault Float := do
  if sample.isZero then return 0.0
  let consistency ← if (Number.int 1).lt variations then (Number.double 1.0).div variations
    else pure 1.0
  let share ← occurrences.div sample
  calculate (.double share) sample (.double consistency)

/-- The order of two confidences, equal when they differ by a tenth at most. -/
def compare (a b : Number) : Except Fault Ordering := do
  let diff ← a.sub b
  return if (Number.double 0.1).lt diff then .gt
    else if diff.lt (.double (-0.1)) then .lt
    else .eq

def sum (values : List Number) : Except Fault Number :=
  values.foldlM Number.add (.int 0)

def mean (values : List Number) : Except Fault Float := do
  if values.isEmpty then return 0.0
  (← sum values).div (.int values.length)

/-- The mean of values of different weight, zero where values and weights do not pair up. -/
def weightedMean (values weights : List Number) : Except Fault Float := do
  if values.isEmpty || values.length != weights.length then return 0.0
  let total ← sum weights
  if total.isZero then return 0.0
  let products ← (values.zip weights).mapM fun (v, w) => v.mul w
  (← sum products).div total

/-- Whole hundredths, cut off. -/
def percentage (c : Number) : Except Fault Int := do
  (← c.mul (.int 100)).truncate

end JavaProfile.Confidence
