import JavaProfile.Convention.Kind
import JavaProfile.Source.Scan

/-!
Libraries that a project uses, by the imports, annotations and interfaces of its main files.
-/

namespace JavaProfile

structure LombokUse where
  detected : Bool := false
  data : Bool := false
  builder : Bool := false
  accessors : Bool := false
  slf4j : Bool := false
  requiredArgs : Bool := false
  allArgs : Bool := false
  noArgs : Bool := false
  deriving DecidableEq, Repr

namespace Scan

def importsAny (s : Scan) (fragment : String) : Bool :=
  s.mainFiles.any (·.importsContaining fragment)

def marksAny (s : Scan) (m : Marker) : Bool :=
  s.mainFiles.any (·.hasMarker m)

def mapper (s : Scan) : MapperKind :=
  if s.marksAny .mapper || s.importsAny "mapstruct" then .mapstruct
  else if s.importsAny "modelmapper" then .modelmapper
  else .manual

def lombok (s : Scan) : LombokUse :=
  let use : LombokUse :=
    { data := s.marksAny .data
      builder := s.marksAny .builder
      accessors := s.marksAny .getter || s.marksAny .setter
      slf4j := s.marksAny .slf4j
      requiredArgs := s.marksAny .requiredArgsConstructor
      allArgs := s.marksAny .allArgsConstructor
      noArgs := s.marksAny .noArgsConstructor }
  { use with detected := use ≠ {} }

end Scan

/-! ### Documentation of interfaces -/

def SwaggerStyle.ofImport? (name : String) : Option SwaggerStyle :=
  if Text.includes name "io.swagger.v3" || Text.includes name "springdoc" then some .openapi3
  else if Text.includes name "io.swagger" && !Text.includes name "v3" then some .swagger2
  else none

def SwaggerStyle.ofMarker? (m : Marker) : Option SwaggerStyle :=
  if m.isOpenApi then some .openapi3 else if m.isSwagger then some .swagger2 else none

/-- The imports of a file come before its annotations. -/
def SwaggerStyle.ofFile? (f : SourceFile) : Option SwaggerStyle :=
  (f.imports.findSome? ofImport?).or (f.markers.findSome? ofMarker?)

/-- The style of the first file that shows one. -/
def Scan.swaggerStyle (s : Scan) : SwaggerStyle :=
  (s.mainFiles.findSome? SwaggerStyle.ofFile?).getD .absent

/-! ### Checks of input -/

def ValidationStyle.ofImport? (name : String) : Option ValidationStyle :=
  if Text.includes name "jakarta.validation" then some .jakarta
  else if Text.includes name "javax.validation" then some .javax
  else none

/-- Where the imports do not tell, annotations are taken to be those of Jakarta. -/
def ValidationStyle.ofFile? (f : SourceFile) : Option ValidationStyle :=
  (f.imports.findSome? ofImport?).or
    (if f.markers.any Marker.isValidation then some .jakarta else none)

def Scan.validationStyle (s : Scan) : ValidationStyle :=
  (s.mainFiles.findSome? ValidationStyle.ofFile?).getD .absent

/-! ### Persistence -/

namespace SourceFile

def implementsAny (f : SourceFile) (fragment : String) : Bool :=
  f.interfaces.any (Text.includes · fragment)

def shows (f : SourceFile) : Database → Bool
  | .jpa => f.hasMarker .entity || f.hasMarker .table
  | .cassandra => f.importsContaining "cassandra" || f.implementsAny "CassandraRepository"
  | .mongo =>
    f.hasMarker .document || f.importsContaining "mongodb" || f.implementsAny "MongoRepository"
  | .r2dbc =>
    f.importsContaining "r2dbc" || f.implementsAny "R2dbcRepository" ||
      f.implementsAny "ReactiveCrudRepository"
  | .multi => false
  | .unknown => false

end SourceFile

def Scan.databases (s : Scan) : List Database :=
  [Database.r2dbc, .mongo, .cassandra, .jpa].filter fun d => s.mainFiles.any (·.shows d)

/-- Without any evidence the database is taken to be relational. -/
def Scan.database (s : Scan) : Database :=
  match s.databases with
  | [] => .jpa
  | [d] => d
  | _ => .multi

end JavaProfile
