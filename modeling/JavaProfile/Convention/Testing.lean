import JavaProfile.Source.Scan

/-!
How a project is tested, by its test files.
-/

namespace JavaProfile

structure TestSetup where
  framework : String := "junit5"
  mockito : Bool := false
  testcontainers : Bool := false
  restAssured : Bool := false
  /-- Most test files lie in a package that main files lie in too. -/
  mirrorsMain : Bool := false
  deriving DecidableEq, Repr

namespace Scan

def testsImport (s : Scan) (fragment : String) : Bool :=
  s.testFiles.any (·.importsContaining fragment)

/-- Test files whose package has main files. -/
def mirroredTests (s : Scan) : Nat :=
  s.testFiles.countP fun t => s.mainFiles.any (·.package = t.package)

def testsMirrorMain (s : Scan) : Bool :=
  s.testFiles.isEmpty || s.mainFiles.isEmpty || s.testFiles.length < 2 * s.mirroredTests

def testSetup (s : Scan) : TestSetup where
  mockito := s.testsImport "mockito"
  testcontainers := s.testsImport "testcontainers" || s.testFiles.any (·.hasMarker .testcontainers)
  restAssured := s.testsImport "rest-assured" || s.testsImport "restassured"
  mirrorsMain := s.testsMirrorMain

end Scan

end JavaProfile
