import JavaProfile.Text.Search
import JavaProfile.Text.Split

/-!
Package names: texts whose segments are separated by points. The empty name is the default
package and has no segments.
-/

namespace JavaProfile.Package

/-- The pieces between the points; the empty text has one, the empty piece. -/
def pieces (name : String) : List String :=
  Text.pieces '.' name

def ofPieces (ps : List String) : String :=
  String.ofList (Text.joinWith '.' (ps.map String.toList))

def segments (name : String) : List String :=
  if name = "" then [] else pieces name

def hasSegment (name segment : String) : Bool :=
  (segments name).contains segment

/-- Whether a package is `base` or lies below it. -/
def isWithin (name base : String) : Bool :=
  name == base || Text.startsWith name (base ++ ".")

def child (base segment : String) : String :=
  if base = "" then segment else base ++ "." ++ segment

theorem ofPieces_pieces (name : String) : ofPieces (pieces name) = name := by
  simp [ofPieces, pieces, Text.pieces, List.map_map, Function.comp_def, Text.joinWith_splitOn]

end JavaProfile.Package
