import JavaProfile.Text.Line
import JavaProfile.Text.Utf8
import JavaProfile.Tree.Disk.Place

/-!
Reading files on a disk, and changing what it holds. Every directory on the way to a new file must
be there. The times of files are left as they are.
-/

namespace JavaProfile.DiskTree

/-- The text of a file, with every line break as a line feed. -/
def read (t : DiskTree) (p : Path) : Except TreeError String :=
  match t.locate .target p with
  | .ok (.taken _ (.file bytes)) => .ok (String.ofList (Text.unifyBreaks (Text.decode bytes)))
  | .ok (.taken _ _) => .error (.system .isDirectory p.text)
  | .ok (.free _) => .error (.system .noEntry p.text)
  | .error e => .error e

def writeBytes (t : DiskTree) (p : Path) (bytes : List UInt8) : DiskTree × Except TreeError Unit :=
  match t.locate .file p with
  | .ok (.taken l (.file _)) => (t.put l (.file bytes), .ok ())
  | .ok (.taken _ _) => (t, .error (.system .isDirectory p.text))
  | .ok (.free l) => (t.put l (.file bytes), .ok ())
  | .error e => (t, .error e)

/-- A node at a name that is free, in a directory that is there. -/
def makeNode (t : DiskTree) (p : Path) (n : Node) : Except TreeError DiskTree :=
  match t.locate .name p with
  | .ok (.taken _ _) => .error (.system .fileExists p.text)
  | .ok (.free l) => .ok (t.put l n)
  | .error e => .error e

/-- The end of making a directory: a directory that the path leads to already will do. -/
def settle (t : DiskTree) (p : Path) (e : TreeError) : DiskTree × Except TreeError Location :=
  match t.locate .target p with
  | .ok (.taken l .directory) => (t, .ok l)
  | .error (.system .nameTooLong path) => (t, .error (.system .nameTooLong path))
  | _ => (t, .error e)

/-- Makes a directory where the path to it led. -/
def makeDirectoryAt (t : DiskTree) (p : Path) :
    Except TreeError Place → DiskTree × Except TreeError Location
  | .ok (.free l) => (t.put l .directory, .ok l)
  | .ok (.taken _ _) => settle t p (.system .fileExists p.text)
  | .error e => settle t p e

/-- Makes a directory, first those around it if one is missing, and tells where it is. Parts are
given from the last. -/
def makeDirectoriesFrom (t : DiskTree) (root : Root) :
    (reversed : List String) → DiskTree × Except TreeError Location
  | [] => settle t ⟨root, []⟩ (.system .fileExists (Path.mk root []).text)
  | part :: before =>
    let p : Path := ⟨root, (part :: before).reverse⟩
    match t.locate .name p with
    | .error (.system .noEntry _) =>
      match makeDirectoriesFrom t root before with
      | (t, .error e) => (t, .error e)
      | (t, .ok around) =>
        t.makeDirectoryAt p ((resolve t .name 0 around [part]).mapError (.system · p.text))
    | place => t.makeDirectoryAt p place

def makeDirectories (t : DiskTree) (p : Path) : DiskTree × Except TreeError Unit :=
  match makeDirectoriesFrom t p.root p.parts.reverse with
  | (t, .ok _) => (t, .ok ())
  | (t, .error e) => (t, .error e)

def makeLink (t : DiskTree) (p : Path) (target : String) : DiskTree × Except TreeError Unit :=
  if target.contains '\x00' || p.text.contains '\x00' then (t, .error .nulInPath)
  else if target = "" then (t, .error (.link .noEntry target p.text))
  else if maxPathBytes ≤ target.utf8ByteSize then (t, .error (.link .nameTooLong target p.text))
  else
    match t.makeNode p (.link target) with
    | .ok t => (t, .ok ())
    | .error (.system cause _) => (t, .error (.link cause target p.text))
    | .error e => (t, .error e)

/-! ### Removal -/

/-- The tree without all that lies beneath a location. -/
def removeBeneath (t : DiskTree) (l : Location) : DiskTree :=
  { t with nodes := t.nodes.filter fun (l', _) => !(l.isPrefixOf l' && l ≠ l') }

def removeNode (t : DiskTree) (l : Location) : DiskTree :=
  { t with nodes := t.nodes.filter (·.1 ≠ l) }

def removeEmpty (t : DiskTree) (p : Path) : DiskTree × Except TreeError Unit :=
  match t.locate .name p with
  | .ok (.taken l .directory) => (t.removeNode l, .ok ())
  | .ok (.taken _ _) => (t, .error (.system .notDirectory p.text))
  | .ok (.free _) => (t, .error (.system .noEntry p.text))
  | .error e => (t, .error e)

/-- Removes what a directory holds and then the directory itself. The path is followed again for
that, and may lead nowhere by then. -/
def removeTree (t : DiskTree) (p : Path) : DiskTree × Except TreeError Unit :=
  match t.locate .name p with
  | .ok (.taken l .directory) => (t.removeBeneath l).removeEmpty p
  | .ok (.taken _ (.file _)) => (t, .error (.removedFile p.text))
  | .ok (.taken _ (.link _)) =>
    match t.locate .target p with
    | .ok (.taken _ _) => (t, .error .removedLink)
    | .ok (.free _) => (t, .error (.system .noEntry p.text))
    | .error e => (t, .error e)
  | .ok (.free _) => (t, .error (.system .noEntry p.text))
  | .error e => (t, .error e)

end JavaProfile.DiskTree
