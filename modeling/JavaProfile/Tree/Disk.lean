import JavaProfile.Tree.Disk.Edit
import JavaProfile.Tree.Disk.RealPath
import JavaProfile.Tree.Disk.Walk

/-!
The disk as one of the trees that projects lie in.
-/

namespace JavaProfile.DiskTree

instance : FileTree DiskTree where
  isDirectory t path := t.isDirectory path
  contains t path := (t.find? path).map Option.isSome
  walk t path := t.walk path
  read t path := t.read path
  write t _ path data := t.writeBytes path (Text.encode data)
  makeDirectories t path := t.makeDirectories path
  removeTree t path := t.removeTree path
  realPath := realPath

end JavaProfile.DiskTree
