import JavaProfile.Architecture.Style
import JavaProfile.Convention.Entity
import JavaProfile.Convention.Handling
import JavaProfile.Convention.Kind
import JavaProfile.Convention.Library
import JavaProfile.Convention.Testing
import JavaProfile.Time.Timestamp

/-!
The profile of a project: all that was detected of it, with the locks its users set.
-/

namespace JavaProfile

/-- Documents of another version are not read. -/
def schemaVersion : Int := 1

structure Profile where
  schemaVersion : Int := JavaProfile.schemaVersion
  detectedAt : Timestamp
  projectRoot : String := ""
  architecture : Architecture := .unknown
  confidence : Float := 0.0
  architectureLocked : Bool := false
  featureStyle : Option FeatureStyle := none
  featureModules : List String := []
  basePackage : String := ""
  sourceRoot : String := "src/main/java"
  testRoot : String := "src/test/java"
  baseEntity : Option BaseClass := none
  dtoNaming : DtoNaming := .unknown
  dtoNamingLocked : Bool := false
  controllerSuffix : String := "Controller"
  serviceSuffix : String := "Service"
  idType : String := "Long"
  idGeneration : String := ""
  idLocked : Bool := false
  mapper : MapperKind := .absent
  mapperLocked : Bool := false
  exceptions : ExceptionHandling := {}
  lombok : LombokUse := {}
  hasSwagger : Bool := false
  swaggerStyle : SwaggerStyle := .absent
  hasValidation : Bool := false
  validationStyle : ValidationStyle := .absent
  testing : TestSetup := {}
  database : Database := .unknown
  databaseLocked : Bool := false
  lockedFields : List String := []

namespace Profile

def standard (now : Timestamp) : Profile where
  detectedAt := now
  architecture := .layered
  confidence := 1.0
  dtoNaming := .requestResponse
  mapper := .manual
  validationStyle := .jakarta
  database := .jpa
  idGeneration := identityGeneration
  lombok := { detected := true, data := true, noArgs := true, allArgs := true }
  testing := { mockito := true, mirrorsMain := true }

def isUsable (p : Profile) : Bool :=
  p.architecture ≠ .unknown && p.basePackage ≠ ""

/-- The microseconds since the profile was detected. -/
def age (p : Profile) (now : Timestamp) : Int :=
  now.instant - p.detectedAt.instant

def idImport (p : Profile) : String :=
  if p.idType = "UUID" then "java.util.UUID" else ""

def needsBaseEntityImport (p : Profile) : Bool :=
  p.baseEntity.any fun c => c.package ≠ ""

def baseEntityImport (p : Profile) : String :=
  (p.baseEntity.map (·.qualifiedName)).getD ""

end Profile

end JavaProfile
