import JavaProfile.Number.Decimal
import JavaProfile.Time.Timestamp

/-!
Numbers and texts that stand for timestamps. A number counts seconds or, if it is large,
milliseconds. A text may carry an offset from universal time, and is then moved to universal time.
-/

namespace JavaProfile.Timestamp

/-- What a number or a text for a timestamp can be. -/
inductive Reading where
  | timestamp (t : Timestamp)
  | unreadable
  /-- A moment of the year 0. -/
  | impossible
  /-- A moment whose year in universal time does not have one to four digits. -/
  | outOfRange
  deriving DecidableEq

/-- The moment some microseconds from the start of 1970, in the years 0 to 9999. -/
def readInstant (instant : Int) : Reading :=
  let seconds := instant / 1000000
  if seconds < -62167219200 ∨ 253402300799 < seconds then .unreadable
  else
    match ofInstant? instant with
    | some t => .timestamp t
    | none => .impossible

/-- Larger counts are milliseconds. -/
def maxSeconds : Nat := 20000000000

/-- The microseconds in a millisecond or a second. -/
def unitMicros (isMillis : Bool) : Nat :=
  if isMillis then 1000 else 1000000

/-- A fraction of a unit in microseconds, a half going up. -/
def microsHalfUp (unit : Nat) (fraction : Float) : Int :=
  (Number.double (fraction * Binary64.ofInt unit).round).truncate.toOption.getD 0

/-- The moment some seconds or milliseconds from the start of 1970. -/
def ofNumber : Number → Reading
  | .int n => readInstant (n * unitMicros (maxSeconds < n.natAbs))
  | .double x =>
    let unit := unitMicros (Binary64.ofInt maxSeconds < x.abs)
    match (Number.double x.floor).truncate with
    | .ok whole => readInstant (whole * unit + microsHalfUp unit (x - x.floor))
    | .error _ => .unreadable

/-! ### Texts -/

/-- A number of exactly `width` digits at the front of a text. -/
def readDigits? (width : Nat) (cs : List Char) : Option (Nat × List Char) :=
  let digits := cs.take width
  if digits.length = width ∧ digits.all Char.isDigit then
    some (Decimal.ofDigits digits, cs.drop width)
  else none

def readMark? (mark : Char) : List Char → Option (List Char)
  | c :: cs => if c = mark then some cs else none
  | [] => none

/-- A year, a month and a day. There is no date in the year 0, which is a leap year. -/
def readDate? (cs : List Char) : Option (Option Date × List Char) := do
  let (year, cs) ← readDigits? 4 cs
  let cs ← readMark? '-' cs
  let (month, cs) ← readDigits? 2 cs
  let cs ← readMark? '-' cs
  let (day, cs) ← readDigits? 2 cs
  if (1 ≤ month ∧ month ≤ 12) ∧ (1 ≤ day ∧ day ≤ daysInMonth year month) then
    return (Date.of? year month day, cs)
  else none

/-- A fraction of a second, cut off after the sixth digit. -/
def readFraction? (cs : List Char) : Option (Nat × List Char) :=
  match cs with
  | c :: after =>
    if c = '.' ∨ c = ',' then
      let digits := after.takeWhile Char.isDigit
      if digits = [] then none
      else
        let six := (digits ++ List.replicate 6 '0').take 6
        some (Decimal.ofDigits six, after.dropWhile Char.isDigit)
    else some (0, cs)
  | [] => some (0, [])

/-- Seconds with their fraction, in microseconds; a time may stop before them. -/
def readSeconds? (cs : List Char) : Option (Nat × List Char) :=
  match cs with
  | ':' :: after => do
    let (second, cs) ← readDigits? 2 after
    let (fraction, cs) ← readFraction? cs
    if second < 60 then some (second * 1000000 + fraction, cs) else none
  | _ => some (0, cs)

/-- A time of day in microseconds. -/
def readTime? (cs : List Char) : Option (Nat × List Char) := do
  let (hour, cs) ← readDigits? 2 cs
  let cs ← readMark? ':' cs
  let (minute, cs) ← readDigits? 2 cs
  let (micros, cs) ← readSeconds? cs
  if hour < 24 ∧ minute < 60 then some ((hour * 60 + minute) * 60000000 + micros, cs) else none

/-- The offset a text ends with, in seconds east of universal time; none when there is no text. -/
def readOffset? : List Char → Option (Option Int)
  | [] => some none
  | c :: cs =>
    if c = 'Z' ∨ c = 'z' then
      if cs = [] then some (some 0) else none
    else if c = '+' ∨ c = '-' ∨ c = '\u2212' then do
      let (hour, cs) ← readDigits? 2 cs
      let (minute, cs) ← readDigits? 2 ((readMark? ':' cs).getD cs)
      let seconds := hour * 3600 + minute * 60
      if cs = [] ∧ minute < 60 ∧ seconds < 86400 then
        some (some (Binary64.signed (c ≠ '+') seconds))
      else none
    else none

/-- A timestamp moved to universal time. -/
def toUniversal (t : Timestamp) (offset : Option Int) : Reading :=
  match offset with
  | none => .timestamp t
  | some seconds =>
    match ofInstant? (t.instant - seconds * 1000000) with
    | some t => .timestamp t
    | none => .outOfRange

def isSeparator (c : Char) : Bool :=
  c == 'T' || c == 't' || c == ' ' || c == '_'

/-- A time of a day, moved to universal time. -/
def onDay (date : Option Date) (micros : Nat) (offset : Option Int) : Reading :=
  match date.bind (of? · micros) with
  | some t => toUniversal t offset
  | none => .impossible

/-- A date alone, or a date, a separator, a time of day and perhaps an offset. -/
def readCalendar? (cs : List Char) : Option Reading := do
  let (date, rest) ← readDate? cs
  match rest with
  | [] => return onDay date 0 none
  | sep :: rest =>
    if isSeparator sep then do
      let (micros, rest) ← readTime? rest
      return onDay date micros (← readOffset? rest)
    else none

/-- A number: a sign and digits. With a point among them it may have an exponent too. -/
def readNumber? (cs : List Char) : Option Number :=
  let (negative, body) := Decimal.splitSign cs
  let whole := body.takeWhile Char.isDigit
  match body.dropWhile Char.isDigit with
  | [] =>
    if whole = [] then none else some (.int (Binary64.signed negative (Decimal.ofDigits whole)))
  | '.' :: _ =>
    if Decimal.ofDigits whole < twoTo 63 then
      (Decimal.readUnsigned? negative body).map fun d => .double d.toFloat
    else none
  | _ => none

def read (text : String) : Reading :=
  (readCalendar? text.toList).getD (((readNumber? text.toList).map ofNumber).getD .unreadable)

end JavaProfile.Timestamp
