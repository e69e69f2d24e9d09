import JavaProfile.Number.Format
import JavaProfile.Profile.Basic

/-!
A profile in a few lines for people.
-/

namespace JavaProfile.Profile

/-- A share in whole hundredths, a half going to the even neighbour. -/
def percentText (x : Float) : String :=
  writePlaces 0 (x * 100.0) ++ "%"

def commaList (items : List String) : String :=
  String.intercalate ", " items

def moduleLines (p : Profile) : List String :=
  if p.featureModules = [] then []
  else
    let style := p.featureStyle.getD .nested
    ["Modules:      " ++ commaList p.featureModules ++ " (" ++ label style ++ ")"]

def baseEntityLines (p : Profile) : List String :=
  if p.baseEntity.isSome then ["Base entity:  " ++ p.baseEntityImport] else []

def lockLines (p : Profile) : List String :=
  if p.lockedFields = [] then [] else ["Locked:       " ++ commaList p.lockedFields]

def summaryLines (p : Profile) : List String :=
  ["Project:      " ++ p.projectRoot,
   "Architecture: " ++ label p.architecture ++ " (" ++ percentText p.confidence ++ ")"] ++
  p.moduleLines ++
  ["Base package: " ++ (if p.basePackage = "" then "(default package)" else p.basePackage),
   "DTO naming:   " ++ label p.dtoNaming,
   "ID type:      " ++ p.idType,
   "Mapper:       " ++ label p.mapper,
   "Database:     " ++ label p.database,
   "Validation:   " ++ label p.validationStyle,
   "API docs:     " ++ label p.swaggerStyle,
   "Lombok:       " ++ (if p.lombok.detected then "yes" else "no")] ++
  p.baseEntityLines ++ p.lockLines

def summary (p : Profile) : String :=
  String.intercalate "\n" p.summaryLines

end JavaProfile.Profile
