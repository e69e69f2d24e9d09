import JavaProfile.Source.Category
import JavaProfile.Text.Split

/-!
Annotations that tell something about a project's conventions. Every other annotation is the one
marker `unrecognized`.
-/

namespace JavaProfile

inductive Marker where
  | restController
  | controller
  | service
  | repository
  | component
  | configuration
  | bean
  | controllerAdvice
  | restControllerAdvice
  | mapper
  | entity
  | table
  | document
  | mappedSuperclass
  | data
  | builder
  | getter
  | setter
  | slf4j
  | requiredArgsConstructor
  | allArgsConstructor
  | noArgsConstructor
  | operation
  | tag
  | apiResponse
  | api
  | apiOperation
  | valid
  | notNull
  | notBlank
  | size
  | testcontainers
  | unrecognized
  deriving DecidableEq, Repr, Inhabited

instance : Labelled Marker where
  all := [.restController, .controller, .service, .repository, .component, .configuration, .bean,
    .controllerAdvice, .restControllerAdvice, .mapper, .entity, .table, .document,
    .mappedSuperclass, .data, .builder, .getter, .setter, .slf4j, .requiredArgsConstructor,
    .allArgsConstructor, .noArgsConstructor, .operation, .tag, .apiResponse, .api, .apiOperation,
    .valid, .notNull, .notBlank, .size, .testcontainers, .unrecognized]
  label
    | .restController => "RestController"
    | .controller => "Controller"
    | .service => "Service"
    | .repository => "Repository"
    | .component => "Component"
    | .configuration => "Configuration"
    | .bean => "Bean"
    | .controllerAdvice => "ControllerAdvice"
    | .restControllerAdvice => "RestControllerAdvice"
    | .mapper => "Mapper"
    | .entity => "Entity"
    | .table => "Table"
    | .document => "Document"
    | .mappedSuperclass => "MappedSuperclass"
    | .data => "Data"
    | .builder => "Builder"
    | .getter => "Getter"
    | .setter => "Setter"
    | .slf4j => "Slf4j"
    | .requiredArgsConstructor => "RequiredArgsConstructor"
    | .allArgsConstructor => "AllArgsConstructor"
    | .noArgsConstructor => "NoArgsConstructor"
    | .operation => "Operation"
    | .tag => "Tag"
    | .apiResponse => "ApiResponse"
    | .api => "Api"
    | .apiOperation => "ApiOperation"
    | .valid => "Valid"
    | .notNull => "NotNull"
    | .notBlank => "NotBlank"
    | .size => "Size"
    | .testcontainers => "Testcontainers"
    | .unrecognized => "<unrecognized>"

namespace Marker

def ofSimpleName (name : String) : Marker :=
  (ofLabel? name).getD .unrecognized

/-- The marker of an annotation, by the last segment of its name. -/
def ofName (name : String) : Marker :=
  ofSimpleName (String.ofList (Text.afterLast '.' name.toList))

/-- Marks a handler of exceptions from the whole application. -/
def isAdvice (m : Marker) : Bool :=
  m == controllerAdvice || m == restControllerAdvice

def isOpenApi (m : Marker) : Bool :=
  m == operation || m == tag || m == apiResponse

def isSwagger (m : Marker) : Bool :=
  m == api || m == apiOperation

def isValidation (m : Marker) : Bool :=
  m == valid || m == notNull || m == notBlank || m == size

/-- The category a marker decides, if it decides one. -/
def category? : Marker → Option Category
  | restController | controller => some .controller
  | service => some .service
  | repository => some .repository
  | entity | document | table => some .entity
  | mapper => some .mapper
  | configuration | component | bean => some .config
  | controllerAdvice | restControllerAdvice => some .exception
  | _ => none

end Marker

end JavaProfile
