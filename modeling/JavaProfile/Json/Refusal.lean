/-!
Why a text is refused as JSON, and at which place. The message names the place by line, column and
offset, unless the text only goes beyond a limit.
-/

namespace JavaProfile.Json

inductive Problem where
  | value
  | propertyName
  | colon
  | comma
  | extraData
  | openString
  | controlCharacter
  | escape
  | unicodeEscape
  | byteOrderMark
  /-- An integer of more digits than are converted. -/
  | longInteger (digits : Nat)
  /-- A list inside too many others. -/
  | deepArray
  | deepObject
  deriving DecidableEq, Repr

/-- Where reading stopped, counted in characters from the end of the text. -/
structure Stop where
  problem : Problem
  remaining : Nat
  deriving DecidableEq, Repr

def stop {α : Type} (problem : Problem) (place : List Char) : Except Stop α :=
  .error ⟨problem, place.length⟩

/-- Integers of more digits are refused. -/
def maxIntegerDigits : Nat := 4300

/-- A refusal of a text, with the offset of its place. -/
structure Refusal where
  problem : Problem
  before : List Char
  deriving DecidableEq, Repr

def Problem.text : Problem → String
  | value => "Expecting value"
  | propertyName => "Expecting property name enclosed in double quotes"
  | colon => "Expecting ':' delimiter"
  | comma => "Expecting ',' delimiter"
  | extraData => "Extra data"
  | openString => "Unterminated string starting at"
  | controlCharacter => "Invalid control character at"
  | escape => "Invalid \\escape"
  | unicodeEscape => "Invalid \\uXXXX escape"
  | byteOrderMark => "Unexpected UTF-8 BOM (decode using utf-8-sig)"
  | longInteger digits =>
    "Exceeds the limit (" ++ toString maxIntegerDigits ++
      " digits) for integer string conversion: value has " ++ toString digits ++
      " digits; use sys.set_int_max_str_digits() to increase the limit"
  | deepArray =>
    "maximum recursion depth exceeded while decoding a JSON array from a unicode string"
  | deepObject =>
    "maximum recursion depth exceeded while decoding a JSON object from a unicode string"

/-- Whether the text is no JSON at all, and not only beyond a limit. -/
def Refusal.isMalformed (r : Refusal) : Bool :=
  match r.problem with
  | .longInteger _ => false
  | .deepArray => false
  | .deepObject => false
  | _ => true

def Refusal.kind (r : Refusal) : String :=
  match r.problem with
  | .longInteger _ => "ValueError"
  | .deepArray => "RecursionError"
  | .deepObject => "RecursionError"
  | _ => "JSONDecodeError"

def Refusal.message (r : Refusal) : String :=
  if r.isMalformed then
    let line := r.before.count '\n' + 1
    let column := (r.before.reverse.takeWhile (· ≠ '\n')).length + 1
    r.problem.text ++ ": line " ++ toString line ++ " column " ++ toString column ++
      " (char " ++ toString r.before.length ++ ")"
  else r.problem.text

end JavaProfile.Json
