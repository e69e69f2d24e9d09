import JavaProfile.Json.Writer
import JavaProfile.Profile.Field

/-!
Profiles as JSON documents.
-/

namespace JavaProfile.Profile

open Schema (Member Checked)

def members : List (Member Profile) :=
  Field.order.map Field.member

def toJson (p : Profile) : Json :=
  Member.writeAll members p

def document (p : Profile) : String :=
  Json.write .document p.toJson

/-- The profile of a document. What it leaves out is as in a profile detected `now`. -/
def ofFields (now : Timestamp) (fields : Json.Fields) : Checked Profile :=
  Member.readAll fields members { detectedAt := now }

end JavaProfile.Profile
