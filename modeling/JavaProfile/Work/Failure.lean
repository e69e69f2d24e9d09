import JavaProfile.Json.Display
import JavaProfile.Json.Reader
import JavaProfile.Schema.Issue
import JavaProfile.Time.Duration
import JavaProfile.Tree.Basic

/-!
Why an operation on a project has failed.
-/

namespace JavaProfile

/-- The parts of a cache that can fail, with the path that is named. -/
inductive CacheFault where
  | create (path : String) (cause : TreeError)
  | write (path : String) (cause : TreeError)
  | read (path : String) (cause : TreeError)
  | parse (path : String) (refusal : Json.Refusal)
  | corrupt (path : String)
  | remove (path : String) (cause : TreeError)
  deriving DecidableEq, Repr

def CacheFault.message : CacheFault → String
  | create p e => "Failed to create " ++ p ++ ": " ++ e.message
  | write p e => "Failed to write " ++ p ++ ": " ++ e.message
  | read p e => "Failed to read " ++ p ++ ": " ++ e.message
  | parse p r => "Failed to read " ++ p ++ ": " ++ r.message
  | corrupt p => "Corrupt profile in " ++ p
  | remove p e => "Failed to remove " ++ p ++ ": " ++ e.message

inductive Failure where
  /-- A source root that is there cannot be walked. -/
  | scan (root : String) (cause : TreeError)
  | cache (fault : CacheFault)
  | tree (error : TreeError)
  /-- A text that is refused for a limit it goes beyond, and may be JSON. -/
  | limit (refusal : Json.Refusal)
  | number (fault : Number.Fault)
  | duration (fault : Duration.Fault)
  | document (rejection : Schema.Rejection)
  | missingArgument (name : String)
  | notDirectory (path : String)
  | unknownMode (mode : String)
  | unknownTool (name : String)
  /-- A path that is no text, by the kind of value it is. -/
  | pathKind (kind : String)
  deriving DecidableEq, Repr

def Number.Fault.kind : Number.Fault → String
  | notANumberInteger => "ValueError"
  | _ => "OverflowError"

def Duration.Fault.kind : Duration.Fault → String
  | number fault => fault.kind
  | _ => "OverflowError"

namespace Failure

def message : Failure → String
  | scan root cause => "Failed to walk " ++ root ++ ": " ++ cause.message
  | cache fault => fault.message
  | tree error => error.message
  | limit refusal => refusal.message
  | number fault => fault.message
  | duration fault => fault.message
  | document .dateOutOfRange => "date value out of range"
  | document (.invalid _) => "invalid document"
  | missingArgument name => name ++ " is required"
  | notDirectory path => "Not a directory: " ++ path
  | unknownMode mode => "Unknown mode: " ++ mode
  | unknownTool name => "Unknown tool: " ++ name
  | pathKind kind => "expected str, bytes or os.PathLike object, not " ++ kind

def kind : Failure → String
  | scan _ _ => "ScanError"
  | cache _ => "ProfileCacheError"
  | tree error => error.kind
  | limit refusal => refusal.kind
  | number fault => fault.kind
  | duration fault => fault.kind
  | document .dateOutOfRange => "OverflowError"
  | document (.invalid _) => "ValidationError"
  | missingArgument _ => "ValueError"
  | notDirectory _ => "ValueError"
  | unknownMode _ => "ValueError"
  | unknownTool _ => "ValueError"
  | pathKind _ => "TypeError"

/-- Whether a failure is one that users are told of, and not a defect. -/
def isExpected : Failure → Bool
  | scan _ _ => true
  | cache _ => true
  | _ => false

end Failure

end JavaProfile
