import JavaProfile.Convention.Kind
import JavaProfile.Source.Scan

/-!
Endings of class names, by the majority of the classes concerned.
-/

namespace JavaProfile

/-- The naming that the name of a transfer object follows. -/
def DtoNaming.ofClassName? (name : String) : Option DtoNaming :=
  if Text.endsWith name "Request" || Text.endsWith name "Response" then some .requestResponse
  else if Text.endsWith name "DTO" then some .upper
  else if Text.endsWith name "Dto" then some .lower
  else none

namespace Scan

def dtoCount (s : Scan) (naming : DtoNaming) : Nat :=
  (s.ofCategory .dto).countP fun f => DtoNaming.ofClassName? f.className = some naming

/-- The most frequent naming. Of equally frequent ones, requests and responses come first and then
capital letters. -/
def dtoNaming (s : Scan) : DtoNaming :=
  if s.dtoCount .upper ≤ s.dtoCount .requestResponse ∧
      s.dtoCount .lower ≤ s.dtoCount .requestResponse then .requestResponse
  else if s.dtoCount .lower ≤ s.dtoCount .upper then .upper
  else .lower

/-- Controllers with an ending. -/
def controllerCount (s : Scan) (ending : String) : Nat :=
  (s.ofCategory .controller).countP fun f => Text.endsWith f.className ending

def controllerSuffix (s : Scan) : String :=
  if s.controllerCount "Controller" < s.controllerCount "Resource" then "Resource"
  else "Controller"

end Scan

end JavaProfile
