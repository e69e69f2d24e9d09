import JavaProfile.Tree.Basic

/-!
A tree as a disk holds it, and where the paths in it lead. Files are bytes, and symbolic links are
followed. Names, paths and rows of links are only followed up to a limit.
-/

namespace JavaProfile

inductive Node where
  | file (bytes : List UInt8)
  | link (target : String)
  | directory
  deriving DecidableEq, Repr

/-- Where a node is: the names on the way to it from the root, none of them a link. -/
abbrev Location := List String

structure DiskTree where
  nodes : List (Location × Node) := []
  /-- The directory that relative paths start from. -/
  here : Location := []
  /-- When files were written, in seconds since 1970, or second 0 where it is not known. -/
  times : List (Location × Number) := []

namespace DiskTree

/-- The node at a location. The root is a directory. -/
def node? (t : DiskTree) (l : Location) : Option Node :=
  if l = [] then some .directory else t.nodes.lookup l

def put (t : DiskTree) (l : Location) (n : Node) : DiskTree :=
  { t with nodes := (l, n) :: t.nodes.filter (·.1 ≠ l) }

/-- Where a path leads: to a node, or to a name that is free in a directory. -/
inductive Place where
  | taken (location : Location) (node : Node)
  | free (location : Location)

/-- What a path is followed for. -/
inductive Aim where
  /-- The node that it names, be it a link. -/
  | name
  /-- The node that it leads to through all links. -/
  | target
  /-- A file to write there. A separator after its name would make it a directory. -/
  | file
  deriving DecidableEq, Repr

def maxLinks : Nat := 40

/-- The most bytes of one name. -/
def maxNameBytes : Nat := 255

/-- Paths and targets of links are shorter than this. -/
def maxPathBytes : Nat := 4096

/-- The parts of a link's target. Where it ends with a separator, an empty part is the last. -/
def targetParts (target : String) : List String :=
  let pieces := Text.pieces '/' target
  pieces.filter (· ≠ "") ++ pieces.getLast?.toList.filter (· = "")

def startOf (start : Location) (root : Root) : Location :=
  if root = .relative then start else []

/-- Follows parts from a directory, through at most `links` links. -/
def resolve (t : DiskTree) (aim : Aim) (links : Nat) (here : Location) :
    List String → Except SystemCause Place
  | [] => .ok (.taken here .directory)
  | part :: rest =>
    if part = ".." then resolve t aim links here.dropLast rest
    else if part = "." ∨ part = "" then resolve t aim links here rest
    else if aim = .file ∧ rest = [""] then .error .isDirectory
    else if maxNameBytes < part.utf8ByteSize then .error .nameTooLong
    else
      match t.node? (here ++ [part]) with
      | none => if rest = [] then .ok (.free (here ++ [part])) else .error .noEntry
      | some .directory => resolve t aim links (here ++ [part]) rest
      | some (.file bytes) =>
        if rest = [] then .ok (.taken (here ++ [part]) (.file bytes)) else .error .notDirectory
      | some (.link target) =>
        if rest = [] ∧ aim = .name then .ok (.taken (here ++ [part]) (.link target))
        else
          match links with
          | 0 => .error .linkLoop
          | links + 1 =>
            resolve t aim links (startOf here (Path.rootOf target.toList))
              (targetParts target ++ rest)
termination_by parts => (links, parts.length)

def locate (t : DiskTree) (aim : Aim) (p : Path) : Except TreeError Place :=
  if p.text.contains '\x00' then .error .nulInPath
  else if maxPathBytes ≤ p.text.utf8ByteSize then .error (.system .nameTooLong p.text)
  else (resolve t aim maxLinks (startOf t.here p.root) p.parts).mapError (.system · p.text)

/-- The node a path leads to through all links, if there is one. A name that is too long is an error
of its own. -/
def find? (t : DiskTree) (p : Path) : Except TreeError (Option Node) :=
  match t.locate .target p with
  | .ok (.taken _ n) => .ok (some n)
  | .error (.system .nameTooLong path) => .error (.system .nameTooLong path)
  | _ => .ok none

def isDirectory (t : DiskTree) (p : Path) : Except TreeError Bool :=
  (t.find? p).map fun n => n = some .directory

end DiskTree

end JavaProfile
