import JavaProfile.Json.Refusal
import JavaProfile.Json.Value
import JavaProfile.Number.Decimal

/-!
Reading JSON numbers and words. Beyond the standard, the names `NaN`, `Infinity` and `-Infinity` are
numbers.
-/

namespace JavaProfile.Json

/-- The whole part of a number: zero alone, or digits that do not start with zero. -/
def splitWhole? : List Char → Option (List Char × List Char)
  | [] => none
  | c :: cs =>
    if c = '0' then some ([c], cs)
    else if c.isDigit then some (c :: cs.takeWhile Char.isDigit, cs.dropWhile Char.isDigit)
    else none

def splitFraction (cs : List Char) : Option (List Char) × List Char :=
  match cs with
  | '.' :: after =>
    let digits := after.takeWhile Char.isDigit
    if digits = [] then (none, cs) else (some digits, after.dropWhile Char.isDigit)
  | _ => (none, cs)

/-- The value of an exponent, if one with a digit follows. -/
def splitExponent (cs : List Char) : Option Int × List Char :=
  match cs with
  | c :: after =>
    if c = 'e' ∨ c = 'E' then
      let (negative, tail) := Decimal.splitSign after
      let digits := tail.takeWhile Char.isDigit
      if digits = [] then (none, cs)
      else (some (Binary64.signed negative (Decimal.ofDigits digits)), tail.dropWhile Char.isDigit)
    else (none, cs)
  | [] => (none, cs)

/-- A number at the front of `cs`, whose sign has been taken off; `start` still has the sign. -/
def readNumber (start : List Char) (negative : Bool) (cs : List Char) :
    Except Stop (Json × List Char) :=
  match splitWhole? cs with
  | none => stop .value start
  | some (whole, rest) =>
    let (fraction, rest) := splitFraction rest
    let (exponent, rest) := splitExponent rest
    if fraction.isNone ∧ exponent.isNone then
      if whole.length > maxIntegerDigits then stop (.longInteger whole.length) start
      else .ok (int (Binary64.signed negative (Decimal.ofDigits whole)), rest)
    else
      let digits := fraction.getD []
      let d : Decimal :=
        { negative, digits := Decimal.ofDigits (whole ++ digits),
          exponent := exponent.getD 0 - digits.length }
      .ok (double d.toFloat, rest)

/-- The rest of `cs` after a word at its front. -/
def afterWord? (word : String) (cs : List Char) : Option (List Char) :=
  if word.toList.isPrefixOf cs then some (cs.drop word.toList.length) else none

def words : List (String × Json) :=
  [("null", null), ("true", bool true), ("false", bool false),
   ("NaN", double Binary64.notANumber), ("Infinity", double (Binary64.infinity false)),
   ("-Infinity", double (Binary64.infinity true))]

def readPlain (cs : List Char) : Except Stop (Json × List Char) :=
  match words.findSome? fun w => (afterWord? w.1 cs).map fun rest => (w.2, rest) with
  | some r => .ok r
  | none =>
    match cs with
    | '-' :: rest => readNumber cs true rest
    | _ => readNumber cs false cs

end JavaProfile.Json
