import JavaProfile.Number.Basic
import JavaProfile.Time.Date

/-!
Moments of a calendar without a time zone, to the microsecond, with their written form.
-/

namespace JavaProfile

def microsPerDay : Nat := 86400000000

structure Timestamp where
  date : Date
  /-- Microseconds since midnight. -/
  micros : Nat
  micros_lt : micros < microsPerDay
  deriving DecidableEq

namespace Timestamp

def of? (date : Date) (micros : Nat) : Option Timestamp :=
  if h : micros < microsPerDay then some ⟨date, micros, h⟩ else none

/-- Microseconds since the start of 1970. -/
def instant (t : Timestamp) : Int :=
  t.date.days * microsPerDay + t.micros

/-- The timestamp of an instant, if its year has at most four digits. -/
def ofInstant? (instant : Int) : Option Timestamp := do
  let date ← Date.ofDays? (instant / microsPerDay)
  of? date (instant % microsPerDay).toNat

def first : Timestamp :=
  ⟨⟨1, 1, 1, by decide, by decide, by decide⟩, 0, by decide⟩

def last : Timestamp :=
  ⟨⟨9999, 12, 31, by decide, by decide, by decide⟩, microsPerDay - 1, by decide⟩

/-- The timestamp nearest to an instant. -/
def ofInstant (instant : Int) : Timestamp :=
  (ofInstant? instant).getD (if instant < 0 then first else last)

def write (t : Timestamp) : String :=
  let second := t.micros / 1000000
  let fraction := t.micros % 1000000
  String.ofList <|
    t.date.write ++ 'T' :: Date.padded 2 (second / 3600) ++ ':' ::
      Date.padded 2 (second / 60 % 60) ++ ':' :: Date.padded 2 (second % 60) ++
      (if fraction = 0 then [] else '.' :: Date.padded 6 fraction)

/-! ### Seconds since 1970 -/

/-- A fraction of a second in microseconds, a half going to the even neighbour. -/
def microsOfFraction (x : Float) : Int :=
  match Binary64.decode (x * 1000000.0) with
  | .finite negative m e =>
    let (num, den) := Binary64.ratio m e
    Binary64.signed negative (roundQuotient num den)
  | _ => 0

/-- The reading of a clock that counts seconds since the start of 1970. -/
def ofClock : Number → Timestamp
  | .int n => ofInstant (n * 1000000)
  | .double x =>
    match (Number.double x).truncate with
    | .ok whole => ofInstant (whole * 1000000 + microsOfFraction (x - Binary64.ofInt whole))
    | .error _ => first

end Timestamp

end JavaProfile
