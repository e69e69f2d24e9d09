import JavaProfile.Command.Line
import JavaProfile.Profile.Summary
import JavaProfile.Store.Info
import JavaProfile.Store.Save
import JavaProfile.Text.ControlSequence
import JavaProfile.Tool.Definition

/-!
Running commands: what they print, and the status they end with. Control sequences of terminals are
taken out of what is printed.
-/

namespace JavaProfile.Command

structure Reply where
  status : Nat := 0
  stdout : String := ""
  stderr : String := ""
  /-- A failure that is a defect, and ends the program. -/
  failure : Option Failure := none
  deriving DecidableEq, Repr

namespace Reply

def misused (e : UsageError) : Reply :=
  { status := 2, stderr := Text.withoutControls e.text }

/-- The reply of a command. Failures that are expected are told after the words `opening`. -/
def ofResult (opening : Option String) : Except Failure String → Reply
  | .ok text => { stdout := Text.withoutControls text ++ "\n" }
  | .error e =>
    match opening, e.isExpected with
    | some words, true =>
      { status := 1, stderr := words ++ ": " ++ Text.withoutControls e.message ++ "\n" }
    | _, _ => { status := 1, failure := some e }

end Reply

/-! ### Arguments -/

/-- The arguments of a command: the path of a project and names of fields. -/
structure Bound where
  project : Path
  names : List String
  deriving DecidableEq, Repr

variable {τ : Type} [FileTree τ]

/-- The directory `real`, which was written as `path`. -/
def projectOf (t : τ) (path : String) (real : Path) : Except Misuse Path :=
  match FileTree.isDirectory t real.text, FileTree.contains t real.text with
  | .ok true, _ => .ok real
  | _, .ok true => .error (.pathIsFile path)
  | _, _ => .error (.pathNotFound path)

def bindFields (takesFields : Bool) (project : Path) (names : List String) : Except Misuse Bound :=
  if takesFields then
    if names = [] then .error .missingFields else .ok ⟨project, names⟩
  else if names = [] then .ok ⟨project, []⟩
  else .error (.extraArguments names)

def lockTargets : List String → Except Misuse (List LockTarget)
  | [] => .ok []
  | name :: names =>
    match LockTarget.ofName? name with
    | some target => do return target :: (← lockTargets names)
    | none => .error (.unknownField name)

/-! ### Commands -/

def openCache (project : Path) : Work τ Cache := do
  Work.ofExcept (Cache.ofSettings (← get).settings project none none none)

def detect (project : Path) (options : List String) : Work τ String := do
  let profile ←
    if options.contains "--no-cache" then
      Project.detect ⟨project, (← get).settings.roots⟩
    else do (← openCache project).loadOrDetect (options.contains "--refresh")
  return if options.contains "--json" then profile.document else profile.summary

def cacheInfo (project : Path) : Work τ String := do
  let cache ← openCache project
  let state ← Work.ofOutcome fun s => cache.state s.tree s.now
  return Json.write .answer (state.describe cache)

def cacheClear (project : Path) : Work τ String := do
  let cache ← openCache project
  let present ← Work.ofExcept (cache.isPresent (← get).tree)
  cache.clear
  return if present then "Cleared " ++ cache.directory.text else "No cache to clear"

/-- Locks or unlocks what some names mean in the profile of a project, and saves it. -/
def updateLocks (locked : Bool) (project : Path) (names : List String)
    (targets : List LockTarget) : Work τ String := do
  let cache ← openCache project
  let profile ← cache.loadOrDetect false
  let _ ← cache.save (targets.foldl (fun p t => t.setLocked locked p) profile)
  return (if locked then "Locked: " else "Unlocked: ") ++ String.intercalate ", " names

def reply (opening : Option String) (work : Work τ String) : StateM (Session τ) Reply := do
  return Reply.ofResult opening (← work.run)

def runLocks (c : Context) (locked : Bool) (b : Bound) : StateM (Session τ) Reply :=
  match lockTargets b.names with
  | .ok targets =>
    reply (some "Updating locks failed") (updateLocks locked b.project b.names targets)
  | .error m => return .misused ⟨c, m⟩

/-- The server of tools prints nothing of its own, and ends with its input, which is empty. -/
def served : Reply := {}

def runBound (name : Name) (options : List String) (b : Bound) : StateM (Session τ) Reply :=
  match name with
  | .detect => reply (some "Detection failed") (detect b.project options)
  | .cacheInfo => reply none (cacheInfo b.project)
  | .cacheClear => reply (some "Clear failed") (cacheClear b.project)
  | .lock => runLocks (.command .lock) true b
  | .unlock => runLocks (.command .unlock) false b
  | .serve => return served

/-- Runs a command on the project that its first argument leads to, through all links. -/
def runOnProject (name : Name) (options : List String) (path : String) (names : List String) :
    StateM (Session τ) Reply := do
  let t := (← get).tree
  match FileTree.realPath t path with
  | .error e => return .ofResult none (.error (.tree e))
  | .ok real =>
    match projectOf t path real >>= (bindFields (Context.command name).takesFields · names) with
    | .ok b => runBound name options b
    | .error m => return .misused ⟨.command name, m⟩

def runInvocation (i : Invocation) : StateM (Session τ) Reply :=
  match i.name, i.words.arguments with
  | .serve, [] => return served
  | .serve, arguments => return .misused ⟨.command .serve, .extraArguments arguments⟩
  | name, [] => return .misused ⟨.command name, .missingPath⟩
  | name, path :: names => runOnProject name i.words.options path names

def run (words : List String) : StateM (Session τ) Reply :=
  match read words with
  | .ok (.run i) => runInvocation i
  | .ok .version => return { stdout := program ++ ", version " ++ Tool.version ++ "\n" }
  | .ok (.help c) => return { stdout := c.usageLine }
  | .error e => return .misused e

end JavaProfile.Command
