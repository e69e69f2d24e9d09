import JavaProfile.Json.Value
import JavaProfile.Labelled
import JavaProfile.Schema.Issue
import JavaProfile.Schema.Numeral
import JavaProfile.Time.Reading

/-!
Lenient readings of single values. A text may stand for a number or a truth value, and a number for
a truth value or the other kind of number, as long as nothing is lost.
-/

namespace JavaProfile.Schema

open Checked (fail)

/-- A double as the integer it is. -/
def integral (x : Float) : Checked Int :=
  match Binary64.decode x with
  | .finite negative m e =>
    let (num, den) := Binary64.ratio m e
    if num % den ≠ 0 then fail .fractional
    else if twoTo 63 ≤ num / den then fail .hugeInteger
    else .ok (Binary64.signed negative (num / den))
  | _ => fail .notFinite

def integerOfText (cs : List Char) : Checked Int :=
  if startsWithHugeInteger cs then fail .hugeInteger
  else
    match (plainInteger? cs).or (looseInteger? cs) with
    | some n => .ok n
    | none => fail .unreadableInteger

def readInt : Json → Checked Int
  | .number (.int n) => .ok n
  | .number (.double x) => integral x
  | .bool b => .ok b.toInt
  | .string (.text s) => integerOfText s.toList
  | _ => fail .notInteger

def readDouble : Json → Checked Float
  | .number n =>
    match n.toDouble with
    | .ok x => .ok x
    | .error _ => fail .notNumber
  | .bool b => .ok (if b then 1.0 else 0.0)
  | .string (.text s) =>
    match double? s with
    | some x => .ok x
    | none => fail .unreadableNumber
  | _ => fail .notNumber

/-- A double from 0 to 1. -/
def readShare (v : Json) : Checked Float := do
  let x ← readDouble v
  if x ≤ 1.0 then
    if 0.0 ≤ x then return x else fail .belowMinimum
  else fail .aboveMaximum

def truths : List (String × Bool) :=
  [("0", false), ("off", false), ("f", false), ("false", false), ("n", false), ("no", false),
   ("1", true), ("on", true), ("t", true), ("true", true), ("y", true), ("yes", true)]

def truthOfInt (n : Int) : Checked Bool :=
  if n = 0 then .ok false
  else if n = 1 then .ok true
  else if -twoTo 63 ≤ n ∧ n < twoTo 63 then fail .unreadableTruth
  else fail .notTruth

def readBool : Json → Checked Bool
  | .bool b => .ok b
  | .number (.int n) => truthOfInt n
  | .number (.double x) =>
    match integral x with
    | .ok n => truthOfInt n
    | .error _ => fail .notTruth
  | .string (.text s) =>
    match truths.lookup (String.ofList (s.toList.map Char.toLower)) with
    | some b => .ok b
    | none => fail .unreadableTruth
  | _ => fail .notTruth

def readText : Json → Checked String
  | .string (.text s) => .ok s
  | _ => fail .notText

def readTimestamp : Json → Checked Timestamp
  | .string (.text s) =>
    match Timestamp.read s with
    | .timestamp t => .ok t
    | .unreadable => fail .unreadableDate
    | .impossible => fail .impossibleDate
    | .outOfRange => .error .dateOutOfRange
  | .number n =>
    match Timestamp.ofNumber n, n.toDouble with
    | .timestamp t, _ => .ok t
    | _, .ok _ => fail .impossibleDate
    | _, .error _ => fail .notDate
  | _ => fail .notDate

/-- A member of a finite kind, by its label alone. -/
def readLabel {α : Type} [Labelled α] : Json → Checked α
  | .string (.text s) =>
    match ofLabel? s with
    | some a => .ok a
    | none => fail .notListed
  | _ => fail .notListed

end JavaProfile.Schema
