import JavaProfile.Text.Search
import JavaProfile.Text.Split

/-!
Paths of files and directories. Repeated separators and the part `.` say nothing and are dropped
as a path is read; the part `..` is kept, and only `normalize` resolves it.
-/

namespace JavaProfile

/-- Where a path starts. Two separators, and no more, start a root of their own. -/
inductive Root where
  | relative
  | single
  | double
  deriving DecidableEq, Repr

def Root.text : Root → String
  | relative => ""
  | single => "/"
  | double => "//"

structure Path where
  root : Root
  parts : List String
  deriving BEq, ReflBEq, LawfulBEq, DecidableEq, Repr

namespace Path

def rootOf : List Char → Root
  | ['/', '/'] => .double
  | '/' :: '/' :: c :: _ => if c = '/' then .single else .double
  | '/' :: _ => .single
  | _ => .relative

def ofString (s : String) : Path where
  root := rootOf s.toList
  parts := (Text.pieces '/' s).filter fun p => p ≠ "" && p ≠ "."

instance : Coe String Path := ⟨ofString⟩

def text (p : Path) : String :=
  if p.root = .relative ∧ p.parts = [] then "."
  else p.root.text ++ String.intercalate "/" p.parts

instance : ToString Path := ⟨text⟩

/-- The second path seen from the first, unless the second starts at a root. -/
def join (p q : Path) : Path :=
  if q.root = .relative then ⟨p.root, p.parts ++ q.parts⟩ else q

instance : HDiv Path Path Path := ⟨join⟩

def name (p : Path) : String :=
  p.parts.getLast?.getD ""

/-- A name at its last point, unless the point is its first or its last character. -/
def splitName (name : String) : String × String :=
  let tail := (Text.splitOn '.' name.toList).getLastD []
  let stem := name.toList.take (name.toList.length - tail.length - 1)
  if name.toList.contains '.' && !stem.isEmpty && !tail.isEmpty then
    (String.ofList stem, String.ofList ('.' :: tail))
  else (name, "")

/-- The last part without its suffix. -/
def stem (p : Path) : String := (splitName p.name).1

/-- The last part from its last point on. -/
def suffix (p : Path) : String := (splitName p.name).2

def parent (p : Path) : Path :=
  ⟨p.root, p.parts.dropLast⟩

/-- Whether `p` lies beneath `q`: it starts with all of `q` and goes on. -/
def isBeneath (p q : Path) : Bool :=
  p.root = q.root && q.parts.length < p.parts.length && q.parts.isPrefixOf p.parts

def parents (p : Path) : List Path :=
  (List.range p.parts.length).map fun n => ⟨p.root, p.parts.take n⟩

/-- One part more on resolved parts, the last one first. -/
def resolveStep (root : Root) (done : List String) (part : String) : List String :=
  if part ≠ ".." then part :: done
  else
    match done with
    | [] => if root = .relative then [".."] else []
    | last :: rest => if last = ".." then ".." :: done else rest

/-- Each part `..` taken back against the part before it. At a root there is none to go back to. -/
def normalize (p : Path) : Path :=
  ⟨p.root, (p.parts.foldl (resolveStep p.root) []).reverse⟩

/-- Paths are ordered by their parts, of which the root is the first. -/
def orderKey (p : Path) : List String :=
  if p.root = .relative then p.parts else p.root.text :: p.parts

def ordered (p q : Path) : Bool :=
  !(decide (q.orderKey < p.orderKey))

/-- A path made absolute, with a working directory at the root. -/
def absolute (p : Path) : Path :=
  if p.root = .relative then normalize ⟨.single, p.parts⟩ else normalize p

def commonLength : List String → List String → Nat
  | a :: as, b :: bs => if a = b then commonLength as bs + 1 else 0
  | _, _ => 0

/-- The way to `p` from the directory `start`. -/
def relativeTo (p start : Path) : Path :=
  let target := p.absolute.parts
  let source := start.absolute.parts
  let common := commonLength source target
  ⟨.relative, List.replicate (source.length - common) ".." ++ target.drop common⟩

end Path

end JavaProfile
