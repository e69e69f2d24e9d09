import JavaProfile.Source.Header
import JavaProfile.Source.Scan
import JavaProfile.Tree.Basic
import JavaProfile.Work.Outcome

/-!
Reading a project: its build files and the source files under its two roots.
-/

namespace JavaProfile

structure Project where
  directory : Path
  roots : SourceRoots := {}
  deriving DecidableEq, Repr

/-- The two kinds of sources, with what a scan of each is called. -/
inductive SourceSet where
  | main
  | test
  deriving DecidableEq, Repr

def SourceSet.title : SourceSet → String
  | main => "Scanning sources"
  | test => "Scanning tests"

def SourceRoots.ofSet (r : SourceRoots) : SourceSet → String
  | .main => r.main
  | .test => r.test

def sourceSuffix : String := ".java"

def FileEntry.isSource (e : FileEntry) : Bool :=
  e.path.suffix = sourceSuffix

namespace Project

def sourceRoot (p : Project) (set : SourceSet) : Path :=
  p.directory / (p.roots.ofSet set : Path)

variable {τ : Type} [FileTree τ]

def hasFile (p : Project) (t : τ) (name : String) : Except TreeError Bool :=
  FileTree.contains t (p.directory / (name : Path)).text

def manifests (p : Project) (t : τ) : Except TreeError Manifests := do
  let maven ← p.hasFile t "pom.xml"
  if ← p.hasFile t "build.gradle" then return ⟨maven, true⟩
  return ⟨maven, ← p.hasFile t "build.gradle.kts"⟩

def walkSources (t : τ) (root : Path) : Except TreeError (List FileEntry) :=
  (FileTree.walk t root.text).map fun entries => entries.filter (·.isSource)

/-- The source files under a root; there are none where the root is missing. -/
def sourceEntries (t : τ) (root : Path) : Except Failure (List FileEntry) :=
  match FileTree.isDirectory t root.text with
  | .error cause => .error (.tree cause)
  | .ok false => .ok []
  | .ok true =>
    (walkSources t root).mapError fun cause =>
      if cause.isSystem then .scan root.text cause else .tree cause

/-- A source file, unless it cannot be read. -/
def readSource (t : τ) (set : SourceSet) (e : FileEntry) : Outcome (Option SourceFile) :=
  match FileTree.read t e.path.text with
  | .ok text => .ok (some (SourceFile.ofText text e.path.text (set = .test)))
  | .error cause => do
    .say .debug ("Skipping unreadable file " ++ e.path.text ++ ": " ++ cause.message)
    return none

def readSources (t : τ) (set : SourceSet) : List FileEntry → Outcome (List SourceFile)
  | [] => .ok []
  | e :: es => do
    let file ← readSource t set e
    let files ← readSources t set es
    return file.toList ++ files

/-- More files than this are announced in the log. -/
def quietSize : Nat := 100

def announce (set : SourceSet) (count : Nat) : Outcome Unit :=
  .say .info ("  " ++ set.title ++ ": processing " ++ toString count ++ " files...")

/-- The files of one kind. `announces` tells whether many files are announced. -/
def scanSet (p : Project) (t : τ) (announces : Bool) (set : SourceSet) :
    Outcome (List SourceFile) := do
  let entries ← Outcome.ofExcept id (sourceEntries t (p.sourceRoot set))
  if announces && quietSize < entries.length then announce set entries.length
  readSources t set entries

def scan (p : Project) (t : τ) (announces : Bool) : Outcome Scan := do
  let manifests ← Outcome.ofExcept Failure.tree (p.manifests t)
  let mainFiles ← p.scanSet t announces .main
  let testFiles ← p.scanSet t announces .test
  .say .debug
    ("Scanned " ++ p.directory.text ++ ": " ++ toString mainFiles.length ++ " main files, " ++
      toString testFiles.length ++ " test files")
  return Scan.ofFiles mainFiles testFiles p.roots manifests

end Project

end JavaProfile
