import JavaProfile.Labelled

/-!
The alternatives among which a project chooses: how transfer objects are named, how objects are
mapped, where data is kept, how interfaces are documented and how input is checked.
-/

namespace JavaProfile

inductive DtoNaming where
  | requestResponse
  | upper
  | lower
  | unknown
  deriving DecidableEq, Repr, Inhabited

instance : Labelled DtoNaming where
  all := [.requestResponse, .upper, .lower, .unknown]
  label
    | .requestResponse => "request_response"
    | .upper => "dto_upper"
    | .lower => "dto_lower"
    | .unknown => "unknown"

namespace DtoNaming

/-- The suffixes themselves, as names of the naming. -/
def aliases : List (String × DtoNaming) :=
  [("DTO", .upper), ("Dto", .lower)]

def ofName (name : String) : DtoNaming :=
  ((aliases.lookup name).or (ofLabel? name)).getD .unknown

def requestSuffix : DtoNaming → String
  | upper => "DTO"
  | lower => "Dto"
  | _ => "Request"

def responseSuffix : DtoNaming → String
  | upper => "DTO"
  | lower => "Dto"
  | _ => "Response"

end DtoNaming

inductive MapperKind where
  | mapstruct
  | modelmapper
  | manual
  | absent
  deriving DecidableEq, Repr, Inhabited

instance : Labelled MapperKind where
  all := [.mapstruct, .modelmapper, .manual, .absent]
  label
    | .mapstruct => "mapstruct"
    | .modelmapper => "modelmapper"
    | .manual => "manual"
    | .absent => "none"

def MapperKind.ofName (name : String) : MapperKind :=
  (ofLabel? name).getD .absent

inductive Database where
  | jpa
  | cassandra
  | mongo
  | r2dbc
  | multi
  | unknown
  deriving DecidableEq, Repr, Inhabited

instance : Labelled Database where
  all := [.jpa, .cassandra, .mongo, .r2dbc, .multi, .unknown]
  label
    | .jpa => "jpa"
    | .cassandra => "cassandra"
    | .mongo => "mongo"
    | .r2dbc => "r2dbc"
    | .multi => "multi"
    | .unknown => "unknown"

def Database.ofName (name : String) : Database :=
  if name = "mongodb" then .mongo else (ofLabel? name).getD .unknown

inductive SwaggerStyle where
  | openapi3
  | swagger2
  | absent
  deriving DecidableEq, Repr, Inhabited

instance : Labelled SwaggerStyle where
  all := [.openapi3, .swagger2, .absent]
  label
    | .openapi3 => "openapi3"
    | .swagger2 => "swagger2"
    | .absent => "none"

inductive ValidationStyle where
  | jakarta
  | javax
  | absent
  deriving DecidableEq, Repr, Inhabited

instance : Labelled ValidationStyle where
  all := [.jakarta, .javax, .absent]
  label
    | .jakarta => "jakarta"
    | .javax => "javax"
    | .absent => "none"

end JavaProfile
