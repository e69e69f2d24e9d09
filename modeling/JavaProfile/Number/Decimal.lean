import JavaProfile.Number.Binary64
import JavaProfile.Text.Blank
import JavaProfile.Text.Digit

/-!
Decimal numbers as texts write them, and the doubles nearest to them.
-/

namespace JavaProfile

/-- The number `± digits * 10 ^ exponent`. -/
structure Decimal where
  negative : Bool
  digits : Nat
  exponent : Int
  deriving DecidableEq, Repr

namespace Decimal

/-- The nearest double. Exponents far outside the range of doubles are settled without the power. -/
def toFloat (d : Decimal) : Float :=
  if d.digits = 0 then Binary64.ofMagnitudeBits d.negative 0
  else if d.exponent > 400 then Binary64.infinity d.negative
  else if d.exponent + (d.digits.log2 / 3 + 1 : Nat) < -400 then
    Binary64.ofMagnitudeBits d.negative 0
  else if d.exponent ≥ 0 then
    Binary64.ofRatio d.negative (d.digits * tenTo d.exponent.toNat) 1
  else Binary64.ofRatio d.negative d.digits (tenTo (-d.exponent).toNat)

def ofDigits (cs : List Char) : Nat :=
  cs.foldl (fun n c => 10 * n + (c.toNat - '0'.toNat)) 0

def splitSign : List Char → Bool × List Char
  | '-' :: cs => (true, cs)
  | '+' :: cs => (false, cs)
  | cs => (false, cs)

/-- The exponent a text ends with; an empty text is the exponent zero. -/
def readExponent? : List Char → Option Int
  | [] => some 0
  | c :: cs =>
    if c = 'e' ∨ c = 'E' then
      let (negative, digits) := splitSign cs
      if digits ≠ [] ∧ digits.all Char.isDigit then
        some (Binary64.signed negative (ofDigits digits))
      else none
    else none

/-- Digits with at most one point among them, then an exponent. -/
def readUnsigned? (negative : Bool) (cs : List Char) : Option Decimal :=
  let whole := cs.takeWhile Char.isDigit
  let rest := cs.dropWhile Char.isDigit
  let (fraction, rest) := match rest with
    | '.' :: after => (after.takeWhile Char.isDigit, after.dropWhile Char.isDigit)
    | _ => ([], rest)
  if whole = [] ∧ fraction = [] then none
  else
    (readExponent? rest).map fun e =>
      { negative, digits := ofDigits (whole ++ fraction), exponent := e - fraction.length }

/-- The value a word such as `inf` or `NaN` names, in any case. -/
def named? (negative : Bool) (cs : List Char) : Option Float :=
  let word := String.ofList (cs.map Char.toLower)
  if word = "inf" ∨ word = "infinity" then some (Binary64.infinity negative)
  else if word = "nan" then some Binary64.notANumber
  else none

/-- A signed decimal or the name of a value that is not finite, and nothing else. -/
def readFloat? (cs : List Char) : Option Float :=
  let (negative, rest) := splitSign cs
  match named? negative rest with
  | some x => some x
  | none => (readUnsigned? negative rest).map toFloat

/-- The text without the underscores that stand between two digits; nothing if one does not. -/
def joinGroups? : (before : Option Char) → List Char → Option (List Char)
  | _, [] => some []
  | before, c :: cs =>
    if c = '_' then
      if (before.any Char.isDigit) && (cs.head?.any Char.isDigit) then joinGroups? (some c) cs
      else none
    else (joinGroups? (some c) cs).map (c :: ·)

/-- Digits of every script as the digits 0 to 9, and blanks beyond code point 127 as spaces.
A character that is neither makes the text unreadable. -/
def plainDigits? (cs : List Char) : Option (List Char) :=
  cs.mapM fun c =>
    if c.toNat < 127 then some c
    else if Text.isBlank c then some ' '
    else (Text.digitValue? c).map fun d => Char.ofNat ('0'.toNat + d)

def isSpace (c : Char) : Bool :=
  c == ' ' || (9 ≤ c.toNat && c.toNat ≤ 13)

/-- A number as people write it: digits of any script, underscores between digits, blanks around. -/
def readLoose? (cs : List Char) : Option Float := do
  let plain ← plainDigits? cs
  let body := ((plain.dropWhile isSpace).reverse.dropWhile isSpace).reverse
  readFloat? (← joinGroups? none body)

end Decimal

end JavaProfile
