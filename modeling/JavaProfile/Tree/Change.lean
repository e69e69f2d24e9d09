import JavaProfile.Tree.Disk

/-!
What has to be done to a disk so that it holds one tree in place of another.
-/

namespace JavaProfile

inductive Change where
  | removeFile (path : Path)
  /-- Removes a directory that holds nothing any more. -/
  | removeDirectory (path : Path)
  | makeDirectory (path : Path)
  | writeFile (path : Path) (bytes : List UInt8)
  deriving DecidableEq, Repr

namespace Change

def removal (l : Location) : Node → Change
  | .directory => .removeDirectory ⟨.single, l⟩
  | _ => .removeFile ⟨.single, l⟩

/-- How a node comes to be on a disk; no link is ever made. -/
def addition (l : Location) : Node → Option Change
  | .file bytes => some (.writeFile ⟨.single, l⟩ bytes)
  | .directory => some (.makeDirectory ⟨.single, l⟩)
  | .link _ => none

/-- Changes in an order in which each can be made: what a directory holds goes before the directory,
and comes after it. -/
def between (old new : DiskTree) : List Change :=
  let gone := old.nodes.filter fun (l, n) => new.node? l ≠ some n
  let come := new.nodes.filter fun (l, n) => old.node? l ≠ some n
  (gone.mergeSort fun a b => decide (b.1.length ≤ a.1.length)).map (fun (l, n) => removal l n) ++
    (come.mergeSort fun a b => decide (a.1.length ≤ b.1.length)).filterMap fun (l, n) =>
      addition l n

end Change

end JavaProfile
