import JavaProfile.Architecture.Score
import JavaProfile.Json.Writer
import JavaProfile.Store.Info
import JavaProfile.Store.Save
import JavaProfile.Tool.Definition
import JavaProfile.Tool.Timing

/-!
Calls of tools. Arguments come as JSON; one that is not set counts as missing.
-/

namespace JavaProfile.Tool

abbrev Arguments := Json.Fields

def argument? (args : Arguments) (name : String) : Option Json :=
  (Json.field? args name).filter Json.isSet

def requireArgument (args : Arguments) (name : String) : Except Failure Json :=
  match argument? args name with
  | some v => .ok v
  | none => .error (.missingArgument name)

/-- Whether an argument is set, with what holds when it is not given. -/
def flag (args : Arguments) (name : String) (default : Bool) : Bool :=
  ((Json.field? args name).map Json.isSet).getD default

def pathOf : Json → Except Failure Path
  | .string (.text s) => .ok s
  | v => .error (.pathKind v.kind)

variable {τ : Type} [FileTree τ]

def scoresJson (s : Scan) : Json :=
  let scores : List (Architecture × Float) := s.scores
  .object (scores.map fun (a, x) => (label a, .double (Binary64.roundPlaces 4 x)))

/-- The profile of a project and, if they are asked for, its scores. With the cache they come from
a scan of their own. -/
def profileWithScores (project : Path) (args : Arguments) : Work τ (Profile × Option Scan) := do
  let settings := (← get).settings
  let scored := flag args "include_scores" false
  let uncached : Project := ⟨project, settings.roots⟩
  if flag args "use_cache" true then
    let cache ← Work.ofExcept (Cache.ofSettings settings project none none none)
    let profile ← cache.loadOrDetect (flag args "refresh" false)
    if scored then return (profile, some (← uncached.detectWithScan).2) else return (profile, none)
  else
    let (profile, scan) ← uncached.detectWithScan
    return (profile, if scored then some scan else none)

def detectProfile (args : Arguments) : Work τ Json := do
  let path ← Work.ofExcept (requireArgument args "project_path")
  let project ← Work.ofExcept (pathOf path)
  if ← Work.onTree fun t => FileTree.isDirectory t project.text then
    let (profile, scan) ← profileWithScores project args
    match profile.toJson, scan with
    | .object fields, some s => return .object (Json.put fields "scores" (scoresJson s))
    | v, _ => return v
  else throw (.notDirectory path.display)

def manageCache (args : Arguments) : Work τ Json := do
  let mode ← Work.ofExcept (requireArgument args "mode")
  let path ← Work.ofExcept (requireArgument args "project_path")
  let project ← Work.ofExcept (pathOf path)
  let cache ← Work.ofExcept (Cache.ofSettings (← get).settings project none none none)
  match mode with
  | .string (.text "info") =>
    let state ← Work.ofOutcome fun s => cache.state s.tree s.now
    return state.describe cache
  | .string (.text "clear") =>
    let present ← Work.ofExcept (cache.isPresent (← get).tree)
    cache.clear
    return .object
      [("status", .string (if present then "cleared" else "no_cache")), ("project_path", path),
       ("cache_dir", .string cache.directory.text)]
  | mode => throw (.unknownMode mode.display)

def run (name : Name) (args : Arguments) : Work τ Json :=
  match name with
  | .detectProfile => detectProfile args
  | .manageCache => manageCache args

def callDetails (args : Arguments) : List (String × String) :=
  ("project", ((Json.field? args "project_path").map Json.display).getD "N/A") ::
    ((Json.field? args "mode").toList.map fun m => ("mode", m.display))

/-- The answer to a call, with the time it took. -/
def call (name : String) (args : Arguments) : Work τ String := do
  match (ofLabel? name : Option Name) with
  | none => throw (.unknownTool name)
  | some n =>
    let (answer, seconds) ← Work.timed .info ("tool:" ++ name) (callDetails args) (run n args)
    match injectTiming (Json.write .answer answer) (.double (seconds * 1000.0)) with
    | .ok text => return text
    | .error refusal => throw (.limit refusal)

/-- The answer to a call as a client is sent it. A failure is an answer too. -/
def answer (name : String) (args : Arguments) : Work τ String := do
  match ← Work.attempt (call name args : Work τ String) with
  | .ok text => return text
  | .error e => return "Error: " ++ e.kind ++ ": " ++ e.message

end JavaProfile.Tool
