import JavaProfile.Tree.Basic

/-!
A tree held in memory. Files and directories are known by their normalized paths; a new tree has
the root directory alone.
-/

namespace JavaProfile

structure StoredFile where
  data : String
  modified : Number

structure MemoryTree where
  files : List (Path × StoredFile) := []
  directories : List Path := [⟨.single, []⟩]

namespace MemoryTree

/-- Under what path a tree knows a file or directory. -/
def key (path : String) : Path :=
  (Path.ofString path).normalize

def file? (t : MemoryTree) (k : Path) : Option StoredFile :=
  t.files.lookup k

def hasFile (t : MemoryTree) (k : Path) : Bool :=
  (t.file? k).isSome

def hasDirectory (t : MemoryTree) (k : Path) : Bool :=
  t.directories.contains k

/-- Files with one more, in the place of an earlier one of its path. -/
def putFile (files : List (Path × StoredFile)) (k : Path) (f : StoredFile) :
    List (Path × StoredFile) :=
  match files with
  | [] => [(k, f)]
  | (k', f') :: rest => if k' = k then (k, f) :: rest else (k', f') :: putFile rest k f

def entry (k : Path) (f : StoredFile) : FileEntry :=
  ⟨k, f.data.utf8ByteSize, f.modified⟩

/-- The files beneath a directory in the order of their paths. -/
def walk (t : MemoryTree) (root : String) : Except TreeError (List FileEntry) :=
  if t.hasDirectory (key root) then
    let found := t.files.filter fun (k, _) => k.isBeneath (key root)
    .ok ((found.mergeSort fun a b => a.1.ordered b.1).map fun (k, f) => entry k f)
  else .error (.noDirectory root)

def read (t : MemoryTree) (path : String) : Except TreeError String :=
  match t.file? (key path) with
  | some f => .ok f.data
  | none => .error (.noFile path)

/-- The directories to be made for one, itself first: all on the way from it to the first one that
is there, as nothing is missing around that. -/
def missing (t : MemoryTree) (k : Path) : List Path :=
  (k :: k.parents.reverse).takeWhile fun d => !t.hasDirectory d

def makeDirectories (t : MemoryTree) (path : String) : MemoryTree × Except TreeError Unit :=
  let k := key path
  if t.hasFile k then (t, .error (.fileExists path))
  else ({ t with directories := t.missing k ++ t.directories }, .ok ())

/-- The directory around a file, unless the path is that of a directory. -/
def impliedDirectory (t : MemoryTree) (path : String) : Option String :=
  if t.hasDirectory (key path) then none else some (key path).parent.text

def write (t : MemoryTree) (now : Float) (path data : String) :
    MemoryTree × Except TreeError Unit :=
  match t.impliedDirectory path with
  | none => (t, .error (.isDirectory path))
  | some directory =>
    match t.makeDirectories directory with
    | (t, .error e) => (t, .error e)
    | (t, .ok ()) =>
      ({ t with files := putFile t.files (key path) ⟨data, .double now⟩ }, .ok ())

def removeTree (t : MemoryTree) (path : String) : MemoryTree × Except TreeError Unit :=
  let k := key path
  if t.hasDirectory k then
    ({ files := t.files.filter fun (f, _) => !f.isBeneath k
       directories := t.directories.filter fun d => d ≠ k && !d.isBeneath k }, .ok ())
  else (t, .error (.noDirectory path))

/-- The tree with another time for a file, if there is such a file. -/
def setModified? (t : MemoryTree) (path : String) (time : Number) : Option MemoryTree :=
  (t.file? (key path)).map fun f =>
    { t with files := putFile t.files (key path) { f with modified := time } }

instance : FileTree MemoryTree where
  isDirectory t path := .ok (t.hasDirectory (key path))
  contains t path := .ok (t.hasFile (key path) || t.hasDirectory (key path))
  walk := walk
  read := read
  write := write
  makeDirectories := makeDirectories
  removeTree := removeTree
  impliedDirectory := impliedDirectory

end MemoryTree

end JavaProfile
