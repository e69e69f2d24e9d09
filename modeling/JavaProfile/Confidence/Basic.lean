import JavaProfile.Number.Rounding

/-!
How evidence becomes a confidence between 0 and 1: the strength of a signal, the number of files
behind it and its consistency are weighed against each other. The formulas hold for every kind of
number with the four operations and an order, for quotients as for doubles.
-/

namespace JavaProfile.Confidence

instance natCastFloat : NatCast Float := ⟨Float.ofNat⟩

variable {α : Type} [Add α] [Sub α] [Mul α] [Div α] [NatCast α] [LT α] [DecidableLT α]

def percent (n : Nat) : α :=
  ((n : Nat) : α) / ((100 : Nat) : α)

def zero : α := ((0 : Nat) : α)

def one : α := ((1 : Nat) : α)

/-- The first of two numbers unless the second is smaller. -/
def least (a b : α) : α :=
  if b < a then b else a

/-- The first of two numbers unless the second is greater. -/
def greatest (a b : α) : α :=
  if a < b then b else a

/-- The number of the range from 0 to 1 nearest to `x`. -/
def clamp (x : α) : α :=
  greatest zero (least one x)

/-- A sample of this size carries full weight. -/
def optimalSample : Nat := 10

def sampleShare (size : Nat) : α :=
  if size = 0 then zero else least ((size : α) / (optimalSample : α)) one

/-- Signal, sample and consistency weigh 40, 30 and 30 in a hundred. -/
def weigh (signal sample consistency : α) : α :=
  clamp (signal * percent 40 + sample * percent 30 + consistency * percent 30)

/-- The confidence of a signal that `size` files give. -/
def ofSignal (signal : α) (size : Nat) (consistency : α) : α :=
  weigh signal (sampleShare size) consistency

/-- Distinctive markers raise a confidence, ambiguity lowers it. -/
def adjust (confidence : α) (distinctive : Bool) (ambiguity : α) : α :=
  clamp ((if distinctive then confidence + percent 10 else confidence) - ambiguity * percent 15)

/-- The confidence that `total` files follow a style of which `matching` show signs. -/
def ofStyle (matching total : Nat) (distinctive : Bool) (ambiguity : α) : α :=
  if total = 0 then zero
  else
    adjust (ofSignal ((matching : α) / (total : α)) total (one - ambiguity)) distinctive ambiguity

/-- How consistent the evidence is when a share of it agrees. -/
def consistencyOf (share : α) : α :=
  if share < percent 50 then percent 40
  else if share < percent 70 then percent 60
  else if share < percent 90 then percent 80
  else one

end JavaProfile.Confidence
