import JavaProfile.Architecture.Module
import JavaProfile.Confidence.Basic

/-!
How well the packages of a project fit each architecture style, between 0 and 1. The scores are the
same formulas over quotients and over doubles.
-/

namespace JavaProfile.Scan

open Confidence (percent zero one least clamp ofSignal ofStyle)

variable {α : Type} [Add α] [Sub α] [Mul α] [Div α] [NatCast α] [LT α] [DecidableLT α]

def size (s : Scan) : Nat :=
  s.mainFiles.length

def share (part total : Nat) : α :=
  (part : α) / (total : α)

/-! ### Layers -/

def layerPackages : List String :=
  ["controller", "service", "repository", "entity", "dto", "model"]

def filesOfLayer (s : Scan) (layer : String) : List SourceFile :=
  s.within (Package.child s.basePackage layer)

/-- Layers with at least one file. -/
def layersFound (s : Scan) : Nat :=
  layerPackages.countP fun l => !(s.filesOfLayer l).isEmpty

def filesInLayers (s : Scan) : Nat :=
  (layerPackages.flatMap s.filesOfLayer).length

/-- Four layers are a complete set. -/
def layerCoverage (s : Scan) : α :=
  least (share s.layersFound 4) one

def layeredScore (s : Scan) : α :=
  if s.size = 0 then zero
  else
    let coverage : α := s.layerCoverage
    ofSignal ((coverage + share s.filesInLayers s.size) / ((2 : Nat) : α)) s.size coverage

/-! ### Feature modules -/

/-- Whether the files of a module are of two categories or more. -/
def isDiverse (s : Scan) (module : String) : Bool :=
  2 ≤ ((s.filesOf module).map (·.category)).eraseDups.length

def filesInModules (s : Scan) (modules : List String) : Nat :=
  (modules.flatMap s.filesOf).length

def hasCommon (s : Scan) : Bool :=
  s.mainFiles.any fun f => Package.isWithin f.package (Package.child s.basePackage "common")

/-- A score raised by five in a hundred for each of two signs. -/
def raiseFor (first second : Bool) (score : α) : α :=
  let score := if first then score + percent 5 else score
  if second then score + percent 5 else score

/-- Files outside the modules count half. -/
def discount (score share : α) : α :=
  clamp (score * share + score * (one - share) * percent 50)

def featureScore (s : Scan) : α :=
  let modules := s.featureModules
  if s.basePackage = "" ∨ modules.length < 2 then zero
  else
    let quality : α := share (modules.countP s.isDiverse) modules.length
    let files := s.filesInModules modules
    let score : α := ofStyle files s.size s.hasCommon (one - quality)
    discount (raiseFor s.hasCommon (percent 70 < quality) score) (share files s.size)

/-! ### Styles that show in the names of packages -/

def hexagonalParts : List String :=
  ["domain", "application", "infrastructure", "adapter", "port"]

def cleanParts : List String :=
  ["usecase", "gateway", "presenter", "interactor"]

/-- Parts that support the clean style, which other styles have too. -/
def cleanSupport : List String :=
  ["domain", "application", "infrastructure"]

def modularParts : List String :=
  ["api", "internal", "module"]

/-- How many of the names are a segment of some package. -/
def partsFound (s : Scan) (parts : List String) : Nat :=
  parts.countP fun part => s.packages.any fun p => Package.hasSegment p part

def hexagonalScore (s : Scan) : α :=
  let found := s.partsFound hexagonalParts
  if found < 2 then zero
  else
    let ratio : α := share found hexagonalParts.length
    ofSignal ratio s.size ratio

def cleanScore (s : Scan) : α :=
  let specific := s.partsFound cleanParts
  let support := s.partsFound cleanSupport
  if specific < 1 then zero
  else
    let signal : α := share specific cleanParts.length * percent 70 +
      share support cleanSupport.length * percent 30
    let score : α := ofSignal signal s.size signal
    let score := if 2 ≤ specific then score + percent 15 else score
    clamp (if 2 ≤ support then score + percent 10 else score)

def modularScore (s : Scan) : α :=
  let found := s.partsFound modularParts
  if found < 2 then zero else ofSignal (share found modularParts.length) s.size (percent 70)

/-- A project with more files is not flat. -/
def maxFlatSize : Nat := 15

def flatScore (s : Scan) : α :=
  if maxFlatSize < s.size ∨ 2 < s.packages.length then zero else ofSignal one s.size one

/-! ### All styles -/

def score (s : Scan) : Architecture → α
  | .layered => s.layeredScore
  | .feature => s.featureScore
  | .hexagonal => s.hexagonalScore
  | .clean => s.cleanScore
  | .modular => s.modularScore
  | .flat => s.flatScore
  | .unknown => zero

def scores (s : Scan) : List (Architecture × α) :=
  Architecture.ranking.map fun a => (a, s.score a)

end JavaProfile.Scan
