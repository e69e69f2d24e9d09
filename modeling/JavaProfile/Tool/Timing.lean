import JavaProfile.Json.Reader
import JavaProfile.Json.Writer

/-!
The time a tool took, put into its answer.
-/

namespace JavaProfile.Tool

/-- The time in milliseconds, to a tenth. -/
def timing (milliseconds : Number) : Json :=
  .object [("total_ms", .number (milliseconds.roundPlaces 1))]

/-- An answer with its time. An answer that is no JSON object is left as it is. -/
def injectTiming (answer : String) (milliseconds : Number) : Except Json.Refusal String :=
  match Json.read answer with
  | .ok (.object fields) =>
    .ok (Json.write .answer (.object (Json.put fields "timing" (timing milliseconds))))
  | .ok _ => .ok answer
  | .error refusal => if refusal.isMalformed then .ok answer else .error refusal

end JavaProfile.Tool
