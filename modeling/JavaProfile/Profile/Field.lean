import JavaProfile.Profile.Basic
import JavaProfile.Schema.Codec

/-!
The fields of a profile, each with its name in documents, its written form and its place in the
profile.
-/

namespace JavaProfile

open Schema (Member Codec)

/-! ### Records inside a profile -/

def BaseClass.members : List (Member BaseClass) :=
  [{ name := "name", codec := .text, get := (·.name), set := fun v r => { r with name := v },
     required := true },
   { name := "package", codec := .text, get := (·.package),
     set := fun v r => { r with package := v } },
   { name := "full_path", codec := .text, get := (·.path), set := fun v r => { r with path := v } }]

def CustomException.members : List (Member CustomException) :=
  [{ name := "name", codec := .text, get := (·.name), set := fun v r => { r with name := v },
     required := true },
   { name := "package", codec := .text, get := (·.package),
     set := fun v r => { r with package := v } }]

def ExceptionHandling.members : List (Member ExceptionHandling) :=
  [{ name := "has_global_handler", codec := .bool, get := (·.hasGlobalHandler),
     set := fun v r => { r with hasGlobalHandler := v } },
   { name := "handler_package", codec := .text, get := (·.handlerPackage),
     set := fun v r => { r with handlerPackage := v } },
   { name := "custom_exceptions",
     codec := .list (.record CustomException.members ⟨"", ""⟩), get := (·.customExceptions),
     set := fun v r => { r with customExceptions := v } }]

def LombokUse.members : List (Member LombokUse) :=
  [{ name := "detected", codec := .bool, get := (·.detected),
     set := fun v r => { r with detected := v } },
   { name := "use_data", codec := .bool, get := (·.data), set := fun v r => { r with data := v } },
   { name := "use_builder", codec := .bool, get := (·.builder),
     set := fun v r => { r with builder := v } },
   { name := "use_accessors", codec := .bool, get := (·.accessors),
     set := fun v r => { r with accessors := v } },
   { name := "use_slf4j", codec := .bool, get := (·.slf4j),
     set := fun v r => { r with slf4j := v } },
   { name := "use_required_args", codec := .bool, get := (·.requiredArgs),
     set := fun v r => { r with requiredArgs := v } },
   { name := "use_all_args", codec := .bool, get := (·.allArgs),
     set := fun v r => { r with allArgs := v } },
   { name := "use_no_args", codec := .bool, get := (·.noArgs),
     set := fun v r => { r with noArgs := v } }]

def TestSetup.members : List (Member TestSetup) :=
  [{ name := "framework", codec := .text, get := (·.framework),
     set := fun v r => { r with framework := v } },
   { name := "has_mockito", codec := .bool, get := (·.mockito),
     set := fun v r => { r with mockito := v } },
   { name := "has_testcontainers", codec := .bool, get := (·.testcontainers),
     set := fun v r => { r with testcontainers := v } },
   { name := "has_rest_assured", codec := .bool, get := (·.restAssured),
     set := fun v r => { r with restAssured := v } },
   { name := "structure_mirror", codec := .bool, get := (·.mirrorsMain),
     set := fun v r => { r with mirrorsMain := v } }]

/-! ### Fields -/

inductive Field where
  | schemaVersion
  | detectedAt
  | projectRoot
  | architecture
  | confidence
  | architectureLocked
  | featureStyle
  | featureModules
  | basePackage
  | sourceRoot
  | testRoot
  | baseEntity
  | dtoNaming
  | dtoNamingLocked
  | controllerSuffix
  | serviceSuffix
  | idType
  | idGeneration
  | idLocked
  | mapper
  | mapperLocked
  | exceptions
  | lombok
  | hasSwagger
  | swaggerStyle
  | hasValidation
  | validationStyle
  | testing
  | database
  | databaseLocked
  | lockedFields
  deriving DecidableEq, Repr

namespace Field

/-- The fields in the order in which documents hold them. -/
def order : List Field :=
  [schemaVersion, detectedAt, projectRoot, architecture, confidence, architectureLocked,
   featureStyle, featureModules, basePackage, sourceRoot, testRoot, baseEntity, dtoNaming,
   dtoNamingLocked, controllerSuffix, serviceSuffix, idType, idGeneration, idLocked, mapper,
   mapperLocked, exceptions, lombok, hasSwagger, swaggerStyle, hasValidation, validationStyle,
   testing, database, databaseLocked, lockedFields]

theorem mem_order (f : Field) : f ∈ order := by
  cases f <;> decide

def member : Field → Member Profile
  | schemaVersion =>
    { name := "schema_version", codec := .int, get := (·.schemaVersion),
      set := fun v p => { p with schemaVersion := v } }
  | detectedAt =>
    { name := "detected_at", codec := .timestamp, get := (·.detectedAt),
      set := fun v p => { p with detectedAt := v } }
  | projectRoot =>
    { name := "project_root", codec := .text, get := (·.projectRoot),
      set := fun v p => { p with projectRoot := v } }
  | architecture =>
    { name := "architecture", codec := .label, get := (·.architecture),
      set := fun v p => { p with architecture := v } }
  | confidence =>
    { name := "arch_confidence", codec := .share, get := (·.confidence),
      set := fun v p => { p with confidence := v } }
  | architectureLocked =>
    { name := "arch_locked", codec := .bool, get := (·.architectureLocked),
      set := fun v p => { p with architectureLocked := v } }
  | featureStyle =>
    { name := "feature_style", codec := .option .label, get := (·.featureStyle),
      set := fun v p => { p with featureStyle := v } }
  | featureModules =>
    { name := "feature_modules", codec := .list .text, get := (·.featureModules),
      set := fun v p => { p with featureModules := v } }
  | basePackage =>
    { name := "base_package", codec := .text, get := (·.basePackage),
      set := fun v p => { p with basePackage := v } }
  | sourceRoot =>
    { name := "source_root", codec := .text, get := (·.sourceRoot),
      set := fun v p => { p with sourceRoot := v } }
  | testRoot =>
    { name := "test_root", codec := .text, get := (·.testRoot),
      set := fun v p => { p with testRoot := v } }
  | baseEntity =>
    { name := "base_entity", codec := .option (.record BaseClass.members ⟨"", "", ""⟩),
      get := (·.baseEntity), set := fun v p => { p with baseEntity := v } }
  | dtoNaming =>
    { name := "dto_naming", codec := .label, get := (·.dtoNaming),
      set := fun v p => { p with dtoNaming := v } }
  | dtoNamingLocked =>
    { name := "dto_naming_locked", codec := .bool, get := (·.dtoNamingLocked),
      set := fun v p => { p with dtoNamingLocked := v } }
  | controllerSuffix =>
    { name := "controller_suffix", codec := .text, get := (·.controllerSuffix),
      set := fun v p => { p with controllerSuffix := v } }
  | serviceSuffix =>
    { name := "service_suffix", codec := .text, get := (·.serviceSuffix),
      set := fun v p => { p with serviceSuffix := v } }
  | idType =>
    { name := "id_type", codec := .text, get := (·.idType),
      set := fun v p => { p with idType := v } }
  | idGeneration =>
    { name := "id_annotation", codec := .text, get := (·.idGeneration),
      set := fun v p => { p with idGeneration := v } }
  | idLocked =>
    { name := "id_locked", codec := .bool, get := (·.idLocked),
      set := fun v p => { p with idLocked := v } }
  | mapper =>
    { name := "mapper", codec := .label, get := (·.mapper),
      set := fun v p => { p with mapper := v } }
  | mapperLocked =>
    { name := "mapper_locked", codec := .bool, get := (·.mapperLocked),
      set := fun v p => { p with mapperLocked := v } }
  | exceptions =>
    { name := "exceptions", codec := .record ExceptionHandling.members {}, get := (·.exceptions),
      set := fun v p => { p with exceptions := v } }
  | lombok =>
    { name := "lombok", codec := .record LombokUse.members {}, get := (·.lombok),
      set := fun v p => { p with lombok := v } }
  | hasSwagger =>
    { name := "has_swagger", codec := .bool, get := (·.hasSwagger),
      set := fun v p => { p with hasSwagger := v } }
  | swaggerStyle =>
    { name := "swagger_style", codec := .label, get := (·.swaggerStyle),
      set := fun v p => { p with swaggerStyle := v } }
  | hasValidation =>
    { name := "has_validation", codec := .bool, get := (·.hasValidation),
      set := fun v p => { p with hasValidation := v } }
  | validationStyle =>
    { name := "validation_style", codec := .label, get := (·.validationStyle),
      set := fun v p => { p with validationStyle := v } }
  | testing =>
    { name := "testing", codec := .record TestSetup.members {}, get := (·.testing),
      set := fun v p => { p with testing := v } }
  | database =>
    { name := "database", codec := .label, get := (·.database),
      set := fun v p => { p with database := v } }
  | databaseLocked =>
    { name := "database_locked", codec := .bool, get := (·.databaseLocked),
      set := fun v p => { p with databaseLocked := v } }
  | lockedFields =>
    { name := "locked_fields", codec := .list .text, get := (·.lockedFields),
      set := fun v p => { p with lockedFields := v } }

def name (f : Field) : String :=
  f.member.name

/-- The second profile with the field of the first. -/
def copy (f : Field) (source target : Profile) : Profile :=
  f.member.copy source target

def ofName? (name : String) : Option Field :=
  order.find? (·.name = name)

end Field

end JavaProfile
