import JavaProfile.Source.Marker
import JavaProfile.Text.Search

/-!
The category of a file from its header. A deciding annotation comes before an interface that is a
repository by its name, and that before the ending of the class name.
-/

namespace JavaProfile.Category

/-- Endings of class names, in the order they are tried. -/
def endings : List (List String × Category) :=
  [(["Controller", "Resource"], .controller),
   (["Service", "ServiceImpl"], .service),
   (["Repository"], .repository),
   (["Entity"], .entity),
   (["Mapper"], .mapper),
   (["Exception"], .exception),
   (["Config", "Configuration"], .config),
   (["Request", "Response", "DTO", "Dto"], .dto)]

def ofClassName? (className : String) : Option Category :=
  (endings.find? fun e => e.1.any (Text.endsWith className ·)).map (·.2)

def ofHeader (className : String) (annotations interfaces : List String) : Category :=
  match annotations.findSome? fun a => (Marker.ofName a).category? with
  | some c => c
  | none =>
    if interfaces.any (Text.includes · "Repository") then .repository
    else (ofClassName? className).getD .unknown

end JavaProfile.Category
