import JavaProfile.Number.Decimal
import JavaProfile.Source.Scan
import JavaProfile.Time.Duration

/-!
Settings from the environment. A variable that is not set, or whose text makes no sense, leaves the
default in place.
-/

namespace JavaProfile

structure Settings where
  sourceRoot : Option String := none
  testRoot : Option String := none
  maxAgeHours : Option String := none
  disableProgress : Option String := none
  deriving DecidableEq, Repr

namespace Settings

def sourceRootVariable : String := "STACKPRINT_SOURCE_ROOT"

def testRootVariable : String := "STACKPRINT_TEST_ROOT"

def maxAgeVariable : String := "STACKPRINT_CACHE_MAX_AGE_HOURS"

def disableProgressVariable : String := "STACKPRINT_DISABLE_PROGRESS"

def ofVariables (value? : String → Option String) : Settings where
  sourceRoot := value? sourceRootVariable
  testRoot := value? testRootVariable
  maxAgeHours := value? maxAgeVariable
  disableProgress := value? disableProgressVariable

/-- The source roots; an empty text is the project itself. -/
def roots (s : Settings) : SourceRoots where
  main := s.sourceRoot.getD "src/main/java"
  test := s.testRoot.getD "src/test/java"

/-- The hours a cached profile lives, when a number that is not zero or less is set. -/
def lifetimeHours? (s : Settings) : Option Float := do
  let text ← s.maxAgeHours
  let hours ← Decimal.readLoose? text.toList
  if hours ≤ 0.0 then none else some hours

/-- How long a cached profile lives, a day by default. A number too large for a length of time is
a fault. -/
def lifetime (s : Settings) : Except Duration.Fault Duration :=
  match s.lifetimeHours? with
  | some hours => Duration.hours (.double hours)
  | none => .ok Duration.day

def progressDisabled (s : Settings) : Bool :=
  let word := (s.disableProgress.getD "").toList.map Char.toLower
  ["1", "true", "yes"].contains (String.ofList word)

end Settings

end JavaProfile
