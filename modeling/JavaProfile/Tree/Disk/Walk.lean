import JavaProfile.Tree.Disk.Place

/-!
The files beneath a directory on a disk, in the order of a walk.
-/

namespace JavaProfile.DiskTree

/-- The size of the file at a location, or of the one that a link there leads to. -/
def fileSize? (t : DiskTree) (l : Location) : Option Nat :=
  match t.find? ⟨.single, l⟩ with
  | .ok (some (.file bytes)) => some bytes.length
  | _ => none

/-- When the file at a location was written, or the one that a link there leads to. -/
def modified (t : DiskTree) (l : Location) : Number :=
  match t.locate .target ⟨.single, l⟩ with
  | .ok (.taken l' _) => (t.times.lookup l').getD (.int 0)
  | _ => .int 0

/-- The files of a directory come before those of directories in it; otherwise names decide. -/
def comesBefore : List String → List String → Bool
  | [], _ => true
  | _ :: _, [] => false
  | a :: as, b :: bs =>
    if as = [] ∧ bs = [] then decide (a ≤ b)
    else if as = [] then true
    else if bs = [] then false
    else if a = b then comesBefore as bs
    else decide (a ≤ b)

/-- The ways from a directory to the files beneath it, with their sizes. Links to directories are
not followed. -/
def filesBeneath (t : DiskTree) (l : Location) : List (List String × Nat) :=
  let found := t.nodes.filterMap fun (l', n) =>
    if l.isPrefixOf l' ∧ n ≠ .directory then
      (t.fileSize? l').map fun size => (l'.drop l.length, size)
    else none
  found.mergeSort fun a b => comesBefore a.1 b.1

def walk (t : DiskTree) (p : Path) : Except TreeError (List FileEntry) :=
  match t.locate .target p with
  | .ok (.taken l .directory) =>
    .ok ((t.filesBeneath l).map fun (names, size) =>
      ⟨⟨p.root, p.parts ++ names⟩, size, t.modified (l ++ names)⟩)
  | .ok (.taken _ _) => .error (.system .notDirectory p.text)
  | .ok (.free _) => .error (.system .noEntry p.text)
  | .error e => .error e

end JavaProfile.DiskTree
