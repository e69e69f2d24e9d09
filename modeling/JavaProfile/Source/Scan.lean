import JavaProfile.Package.Base
import JavaProfile.Source.File

/-!
The source files of a project, with the layout that was found beside them.
-/

namespace JavaProfile

inductive BuildTool where
  | maven
  | gradle
  deriving DecidableEq, Repr

instance : Labelled BuildTool where
  all := [.maven, .gradle]
  label
    | .maven => "maven"
    | .gradle => "gradle"

structure Manifests where
  maven : Bool := false
  gradle : Bool := false
  deriving DecidableEq, Repr

/-- Where both kinds of build file are present, Gradle builds the project. -/
def Manifests.tool? (m : Manifests) : Option BuildTool :=
  if m.gradle then some .gradle else if m.maven then some .maven else none

/-- The directories of main and test sources, relative to the project. -/
structure SourceRoots where
  main : String := "src/main/java"
  test : String := "src/test/java"
  deriving DecidableEq, Repr

structure Scan where
  mainFiles : List SourceFile := []
  testFiles : List SourceFile := []
  basePackage : String := ""
  roots : SourceRoots := {}
  manifests : Manifests := {}
  deriving Repr

namespace Scan

/-- The scan of some files, with the base package of the main ones. -/
def ofFiles (mainFiles testFiles : List SourceFile) (roots : SourceRoots) (manifests : Manifests) :
    Scan where
  mainFiles
  testFiles
  basePackage := Package.base (mainFiles.map (·.package))
  roots
  manifests

def ofCategory (s : Scan) (c : Category) : List SourceFile :=
  s.mainFiles.filter (·.category = c)

def withMarker (s : Scan) (m : Marker) : List SourceFile :=
  s.mainFiles.filter (·.hasMarker m)

def extending (s : Scan) (superclass : String) : List SourceFile :=
  s.mainFiles.filter (·.superclass = superclass)

/-- Main files of each package, the package that is seen first in front. -/
def byPackage (s : Scan) : List (String × List SourceFile) :=
  (s.mainFiles.map (·.package)).eraseDups.map fun p => (p, s.mainFiles.filter (·.package = p))

/-- The packages that main files declare, each once, in the order first seen. -/
def packages (s : Scan) : List String :=
  ((s.mainFiles.map (·.package)).filter (· ≠ "")).eraseDups

end Scan

end JavaProfile
