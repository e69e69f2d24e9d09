import JavaProfile.Source.Brackets
import JavaProfile.Text.Blank
import JavaProfile.Text.Split
import JavaProfile.Text.Word

/-!
Lists of types in the header of a type, as in `implements A<X, Y>, B`.
-/

namespace JavaProfile.Source

def isTypeNameChar (c : Char) : Bool :=
  Text.isWord c || c == '.' || c == '$'

/-- The type of one part of the list. A bracket that is still open hides the rest of the part. -/
def typeName? (part : List Char) : Option String :=
  let name := Text.trim (part.takeWhile (· ≠ '<'))
  if name ≠ [] ∧ name.all isTypeNameChar then some (String.ofList name) else none

def typeNames (cs : List Char) : List String :=
  (Text.splitOn ',' (dropGroups cs)).filterMap typeName?

end JavaProfile.Source
