import JavaProfile.Number.Decimal
import JavaProfile.Text.Split

/-!
Texts that stand for numbers. An integer may be written with blanks, zeros, underscores and an empty
fraction, as long as no other integer could be meant.
-/

namespace JavaProfile.Schema

/-- Blanks around numbers: the white space of the Unicode standard. -/
def isMargin (c : Char) : Bool :=
  Text.isBlank c && !(0x1C ≤ c.toNat && c.toNat ≤ 0x1F)

def trimMargin (cs : List Char) : List Char :=
  ((cs.dropWhile isMargin).reverse.dropWhile isMargin).reverse

/-- The text without single underscores in its inside; nothing if one stands at an end or beside
another one. -/
def withoutUnderscores? (cs : List Char) : Option (List Char) :=
  let groups := Text.splitOn '_' cs
  if groups.any List.isEmpty then none else some groups.flatten

/-- The text before a point that zeros and nothing else follow. -/
def withoutZeroFraction (cs : List Char) : List Char :=
  match cs.dropWhile (· ≠ '.') with
  | '.' :: after =>
    if after ≠ [] ∧ after.all (· = '0') then cs.takeWhile (· ≠ '.') else cs
  | _ => cs

/-- What is left behind zeros, the last of which was `last`; underscores may stand between them.
Of zeros alone, or of zeros before a point, the last one stays. A minus may follow them. -/
def dropZeros? (last : Char) : List Char → Option (List Char)
  | [] => some [last]
  | c :: cs =>
    if c = '0' ∨ c = '_' then dropZeros? c cs
    else if c.isDigit ∨ c = '-' then some (c :: cs)
    else if c = '.' then some (last :: c :: cs)
    else none

/-- The text without zeros in front of other digits, if it starts with a digit. -/
def withoutZeros? : List Char → Option (List Char)
  | [] => none
  | c :: cs =>
    if c = '0' then dropZeros? c cs
    else if c.isDigit then some (c :: cs)
    else none

/-- The text without zeros in front of other digits, if it starts like an integer. -/
def withoutLeadingZeros? : List Char → Option (List Char)
  | '-' :: cs => (withoutZeros? cs).map ('-' :: ·)
  | cs => withoutZeros? cs

/-- The text without a plus in front; nothing if a minus follows it. -/
def withoutPlus? : List Char → Option (List Char)
  | '+' :: '-' :: _ => none
  | '+' :: cs => some cs
  | cs => some cs

def splitMinus : List Char → Bool × List Char
  | '-' :: cs => (true, cs)
  | cs => (false, cs)

/-- An integer in its plainest form: no plus, and no zero before another digit. -/
def plainInteger? (cs : List Char) : Option Int :=
  let (negative, digits) := splitMinus cs
  if digits = ['0'] ∨ (digits.head?.any (· ≠ '0') ∧ digits.all Char.isDigit) then
    some (Binary64.signed negative (Decimal.ofDigits digits))
  else none

/-- The most digits an integer may have in a text. -/
def maxDigits : Nat := 4300

/-- Whether a text starts with an integer in its plainest form that has too many digits. -/
def startsWithHugeInteger (cs : List Char) : Bool :=
  let digits := (splitMinus cs).2.takeWhile Char.isDigit
  digits.head? ≠ some '0' && maxDigits < digits.length

/-- An integer with blanks around it, zeros or a plus in front, underscores between its digits or
zeros for a fraction. -/
def looseInteger? (cs : List Char) : Option Int := do
  let body ← withoutLeadingZeros? (← withoutPlus? (trimMargin cs))
  let plain ← withoutUnderscores? (withoutZeroFraction body)
  if startsWithHugeInteger plain then none else plainInteger? plain

/-- A number, or the name of a value that is not finite, with blanks around it or with underscores
inside. -/
def double? (text : String) : Option Float :=
  let cs := text.toList
  (Decimal.readFloat? (trimMargin cs)).or ((withoutUnderscores? cs).bind Decimal.readFloat?)

end JavaProfile.Schema
