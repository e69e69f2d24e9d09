/-!
What can be wrong with a document, and where.
-/

namespace JavaProfile.Schema

inductive Step where
  | field (name : String)
  | item (index : Nat)
  deriving DecidableEq, Repr

/-- A text may stand for a number, a truth value or a date, but not every text does. -/
inductive Flaw where
  | notInteger
  | unreadableInteger
  | fractional
  | notFinite
  | hugeInteger
  | notNumber
  | unreadableNumber
  | belowMinimum
  | aboveMaximum
  | notTruth
  | unreadableTruth
  | notText
  | notList
  | notSequence
  | notListed
  | notRecord
  | missing
  | notDate
  | unreadableDate
  /-- A number or a text that stands for no date of the years 1 to 9999. -/
  | impossibleDate
  deriving DecidableEq, Repr

structure Issue where
  path : List Step
  flaw : Flaw
  deriving DecidableEq, Repr

inductive Rejection where
  | invalid (issues : List Issue)
  /-- A moment beyond the years 1 to 9999 ends the reading at once. -/
  | dateOutOfRange
  deriving DecidableEq, Repr

namespace Rejection

def ofFlaw (f : Flaw) : Rejection :=
  invalid [⟨[], f⟩]

/-- The rejection of a part, seen from the whole. -/
def beneath (s : Step) : Rejection → Rejection
  | invalid issues => invalid (issues.map fun i => { i with path := s :: i.path })
  | dateOutOfRange => dateOutOfRange

def both : Rejection → Rejection → Rejection
  | invalid a, invalid b => invalid (a ++ b)
  | _, _ => dateOutOfRange

end Rejection

abbrev Checked (α : Type) := Except Rejection α

namespace Checked

def fail {α : Type} (f : Flaw) : Checked α :=
  .error (Rejection.ofFlaw f)

def beneath {α : Type} (s : Step) : Checked α → Checked α
  | .ok a => .ok a
  | .error r => .error (r.beneath s)

/-- Both values, or what is wrong with either of them. -/
def pair {α β : Type} : Checked α → Checked β → Checked (α × β)
  | .ok a, .ok b => .ok (a, b)
  | .error r, .ok _ => .error r
  | .ok _, .error r => .error r
  | .error r, .error s => .error (r.both s)

end Checked

end JavaProfile.Schema
