import JavaProfile.Labelled

/-!
Architecture styles, and the two ways in which a feature module holds its files.
-/

namespace JavaProfile

inductive Architecture where
  | layered
  | feature
  | hexagonal
  | clean
  | modular
  | flat
  | unknown
  deriving DecidableEq, Repr, Inhabited

instance : Labelled Architecture where
  all := [.layered, .feature, .hexagonal, .clean, .modular, .flat, .unknown]
  label
    | .layered => "layered"
    | .feature => "feature"
    | .hexagonal => "hexagonal"
    | .clean => "clean"
    | .modular => "modular"
    | .flat => "flat"
    | .unknown => "unknown"

namespace Architecture

def aliases : List (String × Architecture) :=
  [("package-by-feature", .feature), ("ports-and-adapters", .hexagonal),
   ("modular-monolith", .modular)]

def ofName (name : String) : Architecture :=
  ((aliases.lookup name).or (ofLabel? name)).getD .unknown

/-- The styles that are scored. Of two styles with one score the earlier wins. -/
def ranking : List Architecture :=
  [.layered, .feature, .hexagonal, .clean, .modular, .flat]

end Architecture

inductive FeatureStyle where
  /-- All files of a module lie in its package. -/
  | flat
  /-- The files of a module lie in packages below it, one for each layer. -/
  | nested
  deriving DecidableEq, Repr, Inhabited

instance : Labelled FeatureStyle where
  all := [.flat, .nested]
  label
    | .flat => "flat"
    | .nested => "nested"

end JavaProfile
