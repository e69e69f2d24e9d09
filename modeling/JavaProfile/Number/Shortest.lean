import JavaProfile.Number.Binary64

/-!
The shortest decimal that reads back as a given double. On the grids of one, two, … seventeen
significant digits, the first that has a point in the interval rounding to the double wins, and on
it the point nearest to the double.
-/

namespace JavaProfile.Shortest

/-- Compares `a * 10 ^ s` with `b * 2 ^ t`. -/
def compareScaled (a : Nat) (s : Int) (b : Nat) (t : Int) : Ordering :=
  compare (a * tenTo s.toNat * twoTo (-t).toNat) (b * twoTo t.toNat * tenTo (-s).toNat)

/-- The reals that round to `mantissa * 2 ^ exponent`, in quarters of its last place. -/
structure Interval where
  low : Nat
  value : Nat
  high : Nat
  closed : Bool
  scale : Int

def Interval.of (mantissa : Nat) (exponent : Int) : Interval where
  low := if mantissa = twoTo 52 ∧ exponent > -1074 then 4 * mantissa - 1 else 4 * mantissa - 2
  value := 4 * mantissa
  high := 4 * mantissa + 2
  closed := mantissa % 2 = 0
  scale := exponent - 2

def Interval.holds (i : Interval) (a : Nat) (s : Int) : Bool :=
  match compareScaled a s i.low i.scale, compareScaled a s i.high i.scale with
  | .gt, .lt => true
  | .eq, _ => i.closed
  | _, .eq => i.closed
  | _, _ => false

/-- The least `k` with `value < 10 ^ k`, searched upward from a start. -/
def Interval.magnitude (i : Interval) : (fuel : Nat) → (k : Int) → Int
  | 0, k => k
  | fuel + 1, k =>
    if compareScaled 1 k i.value i.scale = .gt then k
    else i.magnitude fuel (k + 1)

/-- The greatest `a` with `a * 10 ^ s` at most the value. -/
def Interval.below (i : Interval) (s : Int) : Nat :=
  (i.value * twoTo i.scale.toNat * tenTo (-s).toNat) / (tenTo s.toNat * twoTo (-i.scale).toNat)

/-- Of the points `a * 10 ^ s` and `(a + 1) * 10 ^ s` around the value, the nearer one that lies in
the interval. -/
def Interval.point? (i : Interval) (s : Int) : Option Nat :=
  let a := i.below s
  match i.holds a s, i.holds (a + 1) s with
  | true, true =>
    match compareScaled (2 * a + 1) s (2 * i.value) i.scale with
    | .gt => some a
    | .lt => some (a + 1)
    | .eq => some (if a % 2 = 0 then a else a + 1)
  | true, false => some a
  | false, true => some (a + 1)
  | false, false => none

/-- The first grid from `places` digits on that has a point, and the point. -/
def Interval.search (i : Interval) (k : Int) : (fuel : Nat) → (places : Nat) → Nat × Int
  | 0, places => (i.below (k - places), k - places)
  | fuel + 1, places =>
    match i.point? (k - places) with
    | some a => (a, k - places)
    | none => i.search k fuel (places + 1)

def dropZeros : (fuel : Nat) → (digits : Nat) → (exponent : Int) → Nat × Int
  | 0, digits, exponent => (digits, exponent)
  | fuel + 1, digits, exponent =>
    if digits ≠ 0 ∧ digits % 10 = 0 then dropZeros fuel (digits / 10) (exponent + 1)
    else (digits, exponent)

/-- Digits and power of ten of the shortest decimal for `mantissa * 2 ^ exponent`. -/
def decimal (mantissa : Nat) (exponent : Int) : Nat × Int :=
  if mantissa = 0 then (0, 0)
  else
    let i := Interval.of mantissa exponent
    let bits : Int := mantissa.log2 + exponent
    let k := i.magnitude 4 (bits * 30103 / 100000 - 1)
    let (digits, e) := i.search k 17 1
    dropZeros 17 digits e

end JavaProfile.Shortest
