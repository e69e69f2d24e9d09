import JavaProfile.Tree.Basic

/-!
Trees that refuse some calls, by the kind of the call and the last part of its path.
-/

namespace JavaProfile

inductive Access where
  | write
  | read
  | makeDirectories
  | walk
  | remove
  /-- Reading finds bytes that are no text. -/
  | decode
  deriving DecidableEq, Repr

structure Guarded (τ : Type) where
  tree : τ
  /-- The names that are refused, for some kinds of calls. The name `*` stands for every name. -/
  refused : List (Access × List String) := []

namespace Guarded

variable {τ : Type}

def refuses (g : Guarded τ) (a : Access) (path : String) : Bool :=
  let names := (g.refused.lookup a).getD []
  names.contains "*" || names.contains (Path.ofString path).name

/-- The tree with other names refused for one kind of call. -/
def refuse (g : Guarded τ) (a : Access) (names : List String) : Guarded τ :=
  { g with refused := (a, names) :: g.refused.filter (·.1 ≠ a) }

def setTree (g : Guarded τ) (r : τ × Except TreeError Unit) : Guarded τ × Except TreeError Unit :=
  ({ g with tree := r.1 }, r.2)

/-- A call on a path that may be refused. -/
def change (g : Guarded τ) (a : Access) (path : String) (call : τ → τ × Except TreeError Unit) :
    Guarded τ × Except TreeError Unit :=
  if g.refuses a path then (g, .error (.denied path)) else g.setTree (call g.tree)

variable [FileTree τ]

def read (g : Guarded τ) (path : String) : Except TreeError String :=
  if g.refuses .read path then .error (.denied path)
  else if g.refuses .decode path then .error .undecodable
  else FileTree.read g.tree path

/-- Where writing makes a directory, that may be refused too. -/
def write (g : Guarded τ) (now : Float) (path data : String) : Guarded τ × Except TreeError Unit :=
  if g.refuses .write path then (g, .error (.denied path))
  else
    match FileTree.impliedDirectory g.tree path with
    | some directory =>
      g.change .makeDirectories directory fun t => FileTree.write t now path data
    | none => g.setTree (FileTree.write g.tree now path data)

instance : FileTree (Guarded τ) where
  isDirectory g := FileTree.isDirectory g.tree
  contains g := FileTree.contains g.tree
  walk g path :=
    if g.refuses .walk path then .error (.denied path) else FileTree.walk g.tree path
  read := read
  write := write
  makeDirectories g path :=
    g.change .makeDirectories path fun t => FileTree.makeDirectories t path
  removeTree g path := g.change .remove path fun t => FileTree.removeTree t path
  impliedDirectory g := FileTree.impliedDirectory g.tree
  realPath g := FileTree.realPath g.tree

end Guarded

end JavaProfile
