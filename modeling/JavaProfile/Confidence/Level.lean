import JavaProfile.Labelled
import JavaProfile.Number.Basic

/-!
Bands of confidence and the thresholds between them.
-/

namespace JavaProfile.Confidence

inductive Level where
  | high
  | medium
  | low
  | veryLow
  deriving DecidableEq, Repr

instance : Labelled Level where
  all := [.high, .medium, .low, .veryLow]
  label
    | .high => "high"
    | .medium => "medium"
    | .low => "low"
    | .veryLow => "very_low"

def highThreshold : Number := .double 0.85

/-- From here on a detected fact is used without asking. -/
def useThreshold : Number := .double 0.70

def lowThreshold : Number := .double 0.30

def isHigh (c : Number) : Bool := highThreshold.le c

def meetsThreshold (c : Number) : Bool := useThreshold.le c

def isTooLow (c : Number) : Bool := c.lt lowThreshold

def needsConfirmation (c : Number) : Bool := lowThreshold.le c && c.lt useThreshold

def level (c : Number) : Level :=
  if isHigh c then .high
  else if meetsThreshold c then .medium
  else if lowThreshold.le c then .low
  else .veryLow

end JavaProfile.Confidence
