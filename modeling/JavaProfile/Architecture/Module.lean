import JavaProfile.Architecture.Style
import JavaProfile.Source.Scan

/-!
Feature modules: packages right below the base package that are not named for a layer or for a part
of some style.
-/

namespace JavaProfile.Scan

def layerNames : List String :=
  ["controller", "service", "repository", "entity", "dto", "mapper", "model", "exception",
   "config", "domain", "application", "infrastructure", "adapter", "port", "usecase", "gateway",
   "presenter", "interactor", "api", "internal", "module", "web", "persistence", "common"]

/-- The main files in a package or below it. -/
def within (s : Scan) (package : String) : List SourceFile :=
  s.mainFiles.filter fun f => Package.isWithin f.package package

/-- The first segment of a package after those of the base package. -/
def segmentBelow? (base package : String) : Option String :=
  (Package.segments package)[(Package.segments base).length]?

def moduleOf? (base package : String) : Option String :=
  if Package.isWithin package base then
    (segmentBelow? base package).filter fun m => !layerNames.contains m
  else none

/-- The feature modules in alphabetical order. -/
def featureModules (s : Scan) : List String :=
  if s.basePackage = "" then []
  else
    let found := (s.mainFiles.filterMap fun f => moduleOf? s.basePackage f.package).eraseDups
    found.mergeSort fun a b => decide (a ≤ b)

def modulePackage (s : Scan) (module : String) : String :=
  Package.child s.basePackage module

def filesOf (s : Scan) (module : String) : List SourceFile :=
  s.within (s.modulePackage module)

/-- Files that lie in the package of a module itself. -/
def flatCount (s : Scan) (modules : List String) : Nat :=
  (modules.flatMap fun m => (s.filesOf m).filter (·.package = s.modulePackage m)).length

/-- Files that lie below the package of a module. -/
def nestedCount (s : Scan) (modules : List String) : Nat :=
  (modules.flatMap fun m => (s.filesOf m).filter (·.package ≠ s.modulePackage m)).length

/-- What most files of the modules do. -/
def featureStyle (s : Scan) (modules : List String) : FeatureStyle :=
  if s.nestedCount modules < s.flatCount modules then .flat else .nested

end JavaProfile.Scan
