import JavaProfile.Package.Name

/-!
The base package of a project: the deepest package that every file lies in. Where some file
declares no package, it is the package around the ones that are declared.
-/

namespace JavaProfile.Package

/-- The longest common beginning of two lists. -/
def commonPieces : List String → List String → List String
  | a :: as, b :: bs => if a = b then a :: commonPieces as bs else []
  | _, _ => []

/-- The longest name that all names start with, segment by segment. -/
def commonPrefix : List String → String
  | [] => ""
  | name :: names =>
    ofPieces (names.foldl (fun shared n => commonPieces shared (pieces n)) (pieces name))

/-- The packages on the way from `outer` by some more pieces. -/
def enclosingFrom (outer : String) : List String → List String
  | [] => []
  | p :: ps => (outer ++ "." ++ p) :: enclosingFrom (outer ++ "." ++ p) ps

/-- The packages a package lies in, the outermost first and itself last. -/
def enclosing (name : String) : List String :=
  match pieces name with
  | [] => []
  | p :: ps => p :: enclosingFrom p ps

theorem ofPieces_append (p : String) (ps : List String) (q : String) :
    ofPieces (p :: ps ++ [q]) = ofPieces (p :: ps) ++ "." ++ q := by
  have join (ps : List (List Char)) : ∀ p q : List Char,
      Text.joinWith '.' (p :: (ps ++ [q])) = Text.joinWith '.' (p :: ps) ++ '.' :: q := by
    induction ps with
    | nil => intro p q; rfl
    | cons r ps ih =>
      intro p q
      rw [Text.joinWith_cons '.' p (by simp), List.cons_append, ih r q,
        Text.joinWith_cons '.' p (by simp)]
      simp
  apply String.toList_injective
  have point : ".".toList = ['.'] := rfl
  simp [ofPieces, join, point]

theorem enclosingFrom_ofPieces (p : String) (ps qs : List String) :
    enclosingFrom (ofPieces (p :: ps)) qs =
      (List.range qs.length).map fun n => ofPieces (p :: ps ++ qs.take (n + 1)) := by
  induction qs generalizing ps with
  | nil => rfl
  | cons q qs ih =>
    rw [enclosingFrom, ← ofPieces_append, List.cons_append, ih, List.length_cons,
      List.range_succ_eq_map]
    simp

/-- The names of the packages a package lies in are the beginnings of its own. -/
theorem enclosing_eq (name : String) :
    enclosing name =
      (List.range (pieces name).length).map fun n => ofPieces ((pieces name).take (n + 1)) := by
  unfold enclosing
  cases pieces name with
  | nil => rfl
  | cons p ps =>
    have one : ofPieces [p] = p := by simp [ofPieces, Text.joinWith]
    have := enclosingFrom_ofPieces p [] ps
    rw [one] at this
    simp [this, one, List.range_succ_eq_map]

def depth (name : String) : Nat :=
  name.toList.count '.'

/-- The deepest of some packages, the first of those equally deep. -/
def deepest? : List String → Option String
  | [] => none
  | name :: names =>
    some (names.foldl (fun best n => if depth best < depth n then n else best) name)

/-- The packages that hold every one of `total` files, as each file counts for all it lies in. They
hold the first file, too. -/
def universal (total : Nat) (declared : List String) : List String :=
  let held := declared.flatMap enclosing
  (declared.head?.toList.flatMap enclosing).filter fun name => held.count name = total

/-- A name without its last segment, unless nothing would remain. -/
def outer (name : String) : String :=
  let head := ofPieces (pieces name).dropLast
  if head = "" then name else head

/-- The base package of files by the packages they declare, `""` where a file declares none. -/
def base (files : List String) : String :=
  if files = [] then ""
  else
    let declared := files.filter (· ≠ "")
    match deepest? (universal files.length declared) with
    | some name => name
    | none => outer (commonPrefix declared)

end JavaProfile.Package
