import JavaProfile.Source.Scan

/-!
How a project handles exceptions.
-/

namespace JavaProfile

structure CustomException where
  name : String
  package : String := ""
  deriving DecidableEq, Repr

structure ExceptionHandling where
  hasGlobalHandler : Bool := false
  /-- The package of the last handler found. -/
  handlerPackage : String := ""
  customExceptions : List CustomException := []
  deriving DecidableEq, Repr

namespace Scan

def globalHandlers (s : Scan) : List SourceFile :=
  (s.ofCategory .exception).filter fun f => f.markers.any Marker.isAdvice

def customExceptions (s : Scan) : List CustomException :=
  ((s.ofCategory .exception).filter fun f => Text.endsWith f.className "Exception").map fun f =>
    ⟨f.className, f.package⟩

def exceptionHandling (s : Scan) : ExceptionHandling where
  hasGlobalHandler := !s.globalHandlers.isEmpty
  handlerPackage := (s.globalHandlers.getLast?.map (·.package)).getD ""
  customExceptions := s.customExceptions

end Scan

end JavaProfile
