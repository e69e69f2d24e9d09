import JavaProfile.Architecture.Decision
import JavaProfile.Profile.Basic
import JavaProfile.Convention.Naming
import JavaProfile.Project.Basic
import JavaProfile.Work.Session

/-!
Detecting the profile of a project from a scan of its files.
-/

namespace JavaProfile

/-- The profile of the project in a directory, as its files show it. -/
def Scan.profile (s : Scan) (directory : Path) (now : Timestamp) : Profile :=
  let decision : Decision Float := Decision.ofScan s
  { detectedAt := now
    projectRoot := directory.text
    architecture := decision.architecture
    confidence := decision.confidence
    featureStyle := decision.featureStyle
    featureModules := decision.featureModules
    basePackage := s.basePackage
    sourceRoot := s.roots.main
    testRoot := s.roots.test
    baseEntity := s.baseEntity?
    dtoNaming := s.dtoNaming
    controllerSuffix := s.controllerSuffix
    idType := s.keyType.name
    idGeneration := s.keyType.generation
    mapper := s.mapper
    exceptions := s.exceptionHandling
    lombok := s.lombok
    hasSwagger := s.swaggerStyle ≠ .absent
    swaggerStyle := s.swaggerStyle
    hasValidation := s.validationStyle ≠ .absent
    validationStyle := s.validationStyle
    testing := s.testSetup
    database := s.database }

namespace Project

variable {τ : Type} [FileTree τ]

def detectWithScan (p : Project) : Work τ (Profile × Scan) := do
  let work : Work τ Scan := Work.ofOutcome fun s => p.scan s.tree s.announces
  let (scan, _) ← Work.timed .debug "detect" [("project", p.directory.text)] work
  return (scan.profile p.directory (← get).now, scan)

def detect (p : Project) : Work τ Profile := do
  return (← p.detectWithScan).1

end Project

end JavaProfile
