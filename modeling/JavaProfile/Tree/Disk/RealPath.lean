import JavaProfile.Tree.Disk.Place

/-!
Real paths: paths with every link followed, also where they lead to nothing that is there. However
many links there are, each is followed once.
-/

namespace JavaProfile.DiskTree

/-- Links met on the way to a real path. A link that is still being followed leads nowhere yet. -/
abbrev Met := List (Location × Option Location)

def target? (t : DiskTree) (l : Location) : Option String :=
  match t.locate .name ⟨.single, l⟩ with
  | .ok (.taken _ (.link target)) => some target
  | _ => none

/-- A path that cannot be followed any further, with the parts that are left. -/
def unfollowed (p : Path) (rest : List String) : Path :=
  p / Path.ofString (String.intercalate "/" rest)

/-- Follows parts from a directory through at most `depth` links inside each other. A part that is
no link is taken as it is, whether it is there or not. A link that leads to itself ends the way. -/
def follow (t : DiskTree) (depth : Nat) (met : Met) (here : Location) :
    List String → Met × Except Path Location
  | [] => (met, .ok here)
  | part :: rest =>
    if part = "." ∨ part = "" then follow t depth met here rest
    else if part = ".." then follow t depth met here.dropLast rest
    else
      let next := here ++ [part]
      match t.target? next with
      | none => follow t depth met next rest
      | some target =>
        match met.lookup next, depth with
        | some (some l), depth => follow t depth met l rest
        | some none, _ => (met, .error (unfollowed ⟨.single, next⟩ rest))
        | none, 0 => (met, .error (unfollowed ⟨.single, next⟩ rest))
        | none, depth + 1 =>
          match follow t depth ((next, none) :: met) (startOf here (Path.rootOf target.toList))
              (Text.pieces '/' target) with
          | (met, .ok l) => follow t (depth + 1) ((next, some l) :: met) l rest
          | (met, .error p) => (met, .error (unfollowed p rest))
termination_by parts => (depth, parts.length)

def linkCount (t : DiskTree) : Nat :=
  t.nodes.countP fun (_, n) => n matches .link _

/-- A path with all links followed, as far as that can be done. -/
def realPath (t : DiskTree) (path : String) : Except TreeError Path :=
  if path.contains '\x00' then .error .nulInPath
  else
    match (t.follow t.linkCount [] (startOf t.here (Path.rootOf path.toList))
        (Text.pieces '/' path)).2 with
    | .ok l => .ok ⟨.single, l⟩
    | .error p => .ok p.normalize

end JavaProfile.DiskTree
