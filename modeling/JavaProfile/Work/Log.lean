import JavaProfile.Labelled

/-!
Lines of a log.
-/

namespace JavaProfile

inductive LogLevel where
  | debug
  | info
  | warning
  | error
  deriving DecidableEq, Repr

instance : Labelled LogLevel where
  all := [.debug, .info, .warning, .error]
  label
    | .debug => "DEBUG"
    | .info => "INFO"
    | .warning => "WARNING"
    | .error => "ERROR"

structure LogLine where
  level : LogLevel
  text : String
  deriving DecidableEq, Repr

namespace LogLine

def write (l : LogLine) : String :=
  label l.level ++ " " ++ l.text

/-- What the user of a program is told of a line: all but details for its makers. -/
def report? (program : String) (l : LogLine) : Option String :=
  if l.level = .debug then none
  else some ("[" ++ program ++ "] " ++ label l.level ++ ": " ++ l.text)

end LogLine

end JavaProfile
