import JavaProfile.Labelled

/-!
What a source file is for.
-/

namespace JavaProfile

inductive Category where
  | controller
  | service
  | repository
  | entity
  | dto
  | mapper
  | exception
  | config
  | test
  | unknown
  deriving DecidableEq, Repr, Inhabited

instance : Labelled Category where
  all := [.controller, .service, .repository, .entity, .dto, .mapper, .exception, .config, .test,
    .unknown]
  label
    | .controller => "controller"
    | .service => "service"
    | .repository => "repository"
    | .entity => "entity"
    | .dto => "dto"
    | .mapper => "mapper"
    | .exception => "exception"
    | .config => "config"
    | .test => "test"
    | .unknown => "unknown"

end JavaProfile
