import JavaProfile.Number.Basic

/-!
Lengths of time in whole microseconds, at most a billion days.
-/

namespace JavaProfile

structure Duration where
  micros : Int
  deriving DecidableEq, Repr

namespace Duration

/-- Why a number of units is no length of time. -/
inductive Fault where
  | number (fault : Number.Fault)
  | days (days : Int)
  | hugeDays
  deriving DecidableEq, Repr

def maxDays : Nat := 999999999

def Fault.message : Fault → String
  | number fault => fault.message
  | days d => "days=" ++ toString d ++ "; must have magnitude <= " ++ toString maxDays
  | hugeDays => "Python int too large to convert to C int"

/-- A length of time if its days are within the limit. -/
def ofMicros (micros : Int) : Except Fault Duration :=
  let days := micros / 86400000000
  if days < -2147483648 ∨ 2147483647 < days then .error .hugeDays
  else if days.natAbs > maxDays then .error (.days days)
  else .ok ⟨micros⟩

def roundToEven (num : Int) (den : Nat) : Int :=
  if num < 0 then -roundQuotient num.natAbs den else roundQuotient num.natAbs den

/-- `n` units of `unit` microseconds, rounded to the nearest microsecond. The whole part of a
double is taken exactly, its fraction is multiplied as a double. -/
def ofUnits (unit : Nat) : Number → Except Fault Duration
  | .int n => ofMicros (n * unit)
  | .double x =>
    match (Number.double x).truncate with
    | .error fault => .error (.number fault)
    | .ok whole =>
      let part := Binary64.ofInt unit * (x - Binary64.ofInt whole)
      let (num, den) := ((Number.double part).ratio?).getD (0, 1)
      ofMicros (roundToEven (whole * unit * den + num) den)

def hours (n : Number) : Except Fault Duration := ofUnits 3600000000 n

def seconds (n : Number) : Except Fault Duration := ofUnits 1000000 n

def day : Duration := ⟨86400000000⟩

end Duration

end JavaProfile
