import JavaProfile.Digest.Sha256
import JavaProfile.Project.Basic
import JavaProfile.Text.Utf8

/-!
The checksum of a project's main sources. It covers the path, size and time of every file, and not
what the files hold.
-/

namespace JavaProfile

/-- The line of a file: its path seen from the project, its size and its time in whole seconds. -/
def FileEntry.line (project : Path) (e : FileEntry) : Except Number.Fault String := do
  let seconds ← e.modified.truncate
  return (e.path.relativeTo project).text ++ ":" ++ toString e.size ++ ":" ++ toString seconds

namespace Project

/-- The lines of source files in alphabetical order. -/
def listing (p : Project) (entries : List FileEntry) : Except Number.Fault String := do
  let lines ← entries.mapM (·.line p.directory)
  return String.intercalate "\n" (lines.mergeSort fun a b => decide (a ≤ b))

variable {τ : Type} [FileTree τ]

/-- The checksum of the main sources as they are now. -/
def checksum (p : Project) (t : τ) : Except Failure String := do
  let root := p.sourceRoot .main
  let present ← (FileTree.isDirectory t root.text).mapError Failure.tree
  let entries ← if present then (walkSources t root).mapError Failure.tree else pure []
  let text ← (p.listing entries).mapError Failure.number
  return Sha256.digest (Text.encode text)

end Project

end JavaProfile
