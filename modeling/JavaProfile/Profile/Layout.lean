import JavaProfile.Architecture.Style
import JavaProfile.Profile.Basic
import JavaProfile.Text.Lower

/-!
The packages of new files, by the architecture of the project, the resource that a file is for and
its layer.
-/

namespace JavaProfile

def webPackage : List String := ["adapter", "in", "web"]

/-- The segments below the base package for a layer of a project with adapters and ports. -/
def hexagonalLayout (layer : String) : List String :=
  if layer = "controller" then webPackage
  else if layer = "service" then ["application", "service"]
  else if layer = "entity" then ["domain", "model"]
  else if layer = "repository" then ["application", "port", "out"]
  else if layer = "dto" then webPackage ++ ["dto"]
  else if layer = "mapper" then webPackage ++ ["mapper"]
  else [layer]

/-- The segments below the base package for a layer of a project with use cases. -/
def cleanLayout (layer : String) : List String :=
  if layer = "controller" then ["infrastructure", "web"]
  else if layer = "service" then ["application", "usecase"]
  else if layer = "entity" then ["domain", "entity"]
  else if layer = "repository" then ["application", "gateway"]
  else if layer = "dto" then ["infrastructure", "web", "dto"]
  else if layer = "mapper" then ["infrastructure", "web", "mapper"]
  else [layer]

/-- In a flat module only transfer objects have a package of their own. -/
def flatModuleLayout (resource layer : String) : List String :=
  if layer = "dto" then [resource, "dto"] else [resource]

/-- The segments below the base package. Feature modules are nested unless they are known to be
flat. -/
def layout (a : Architecture) (style : Option FeatureStyle) (resource layer : String) :
    List String :=
  match a with
  | .feature =>
    if style = some .flat then flatModuleLayout resource layer else [resource, layer]
  | .hexagonal => hexagonalLayout layer
  | .clean => cleanLayout layer
  | .modular => [resource, "internal", layer]
  | .layered => [layer]
  | .flat => [layer]
  | .unknown => [layer]

def resourceSegment (resource : String) : String :=
  String.ofList (Text.lowerFirst resource.toList)

def packageFor (a : Architecture) (style : Option FeatureStyle) (base resource layer : String) :
    String :=
  Package.ofPieces (base :: layout a style (resourceSegment resource) layer)

def Profile.packageFor (p : Profile) (resource layer : String) : String :=
  JavaProfile.packageFor p.architecture p.featureStyle p.basePackage resource layer

end JavaProfile
