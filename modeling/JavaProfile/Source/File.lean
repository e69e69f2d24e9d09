import JavaProfile.Source.Marker
import JavaProfile.Text.Search

/-!
What is known of a source file after its header has been read.
-/

namespace JavaProfile

structure SourceFile where
  path : String
  /-- The declared package, empty for the default package. -/
  package : String := ""
  /-- The name of the first type, or that of the file where none is declared. -/
  className : String
  category : Category := .unknown
  /-- Simple names of annotations in the order written, repetitions kept. -/
  annotations : List String := []
  /-- The superclass, empty when there is none or it is `Object`. -/
  superclass : String := ""
  /-- Implemented interfaces, or those that an interface extends. -/
  interfaces : List String := []
  imports : List String := []
  isAbstract : Bool := false
  isInterface : Bool := false
  deriving DecidableEq, Repr, Inhabited

namespace SourceFile

def markers (f : SourceFile) : List Marker :=
  f.annotations.map Marker.ofName

def hasMarker (f : SourceFile) (m : Marker) : Bool :=
  f.markers.contains m

def importsContaining (f : SourceFile) (fragment : String) : Bool :=
  f.imports.any (Text.includes · fragment)

end SourceFile

end JavaProfile
