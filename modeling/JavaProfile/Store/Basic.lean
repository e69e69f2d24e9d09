import JavaProfile.Profile.Document
import JavaProfile.Profile.Lock
import JavaProfile.Store.Checksum
import JavaProfile.Work.Session

/-!
The cached profile of a project: a document in a directory of its own, beside it the checksum of
the main sources at the time it was written. What cannot be read is as good as absent.
-/

namespace JavaProfile

structure Cache where
  project : Project
  lifetime : Duration := Duration.day

namespace Cache

def directoryName : String := ".stackprint"

def profileName : String := "profile.json"

def checksumName : String := "checksum"

def directory (c : Cache) : Path :=
  c.project.directory / (directoryName : Path)

def profilePath (c : Cache) : Path :=
  c.directory / (profileName : Path)

def checksumPath (c : Cache) : Path :=
  c.directory / (checksumName : Path)

/-- The cache of a project by the settings, some of which may be given. -/
def ofSettings (s : Settings) (directory : Path) (sourceRoot testRoot : Option String)
    (lifetime : Option Duration) : Except Failure Cache := do
  let lifetime ← match lifetime with
    | some d => pure d
    | none => s.lifetime.mapError Failure.duration
  return { project := ⟨directory, ⟨sourceRoot.getD s.roots.main, testRoot.getD s.roots.test⟩⟩
           lifetime }

def isStale (c : Cache) (p : Profile) (now : Timestamp) : Bool :=
  c.lifetime.micros < p.age now

/-! ### Reading -/

variable {τ : Type} [FileTree τ]

def isPresent (c : Cache) (t : τ) : Except Failure Bool :=
  (FileTree.contains t c.profilePath.text).mapError Failure.tree

def fieldsOf (c : Cache) (text : String) : Except Failure Json.Fields :=
  match Json.read text with
  | .ok (.object fields) => .ok fields
  | .ok _ => .error (.cache (.corrupt c.profilePath.text))
  | .error refusal =>
    .error (if refusal.isMalformed then .cache (.parse c.profilePath.text refusal)
      else .limit refusal)

/-- The version of a document, where true counts as one. -/
def isCurrent (version : Option Json) : Bool :=
  match version with
  | some (.number n) => n.eq (.int schemaVersion)
  | some (.bool b) => b
  | _ => false

/-- The profile in a text, unless its version is another one. -/
def parse (c : Cache) (now : Timestamp) (text : String) : Outcome (Option Profile) := do
  let fields ← Outcome.ofExcept id (c.fieldsOf text)
  let version := Json.field? fields Field.schemaVersion.name
  if isCurrent version then
    match Profile.ofFields now fields with
    | .ok p => return some p
    | .error (.invalid _) => .fail (.cache (.corrupt c.profilePath.text))
    | .error .dateOutOfRange => .fail (.document .dateOutOfRange)
  else do
    .say .info
      ("Ignoring cached profile with schema version " ++ (version.getD .null).display ++
        " (current: " ++ toString schemaVersion ++ ")")
    return none

/-- The cached profile, if there is one of the current version. -/
def load (c : Cache) (t : τ) (now : Timestamp) : Outcome (Option Profile) := do
  if ← Outcome.ofExcept id (c.isPresent t) then
    match FileTree.read t c.profilePath.text with
    | .ok text => c.parse now text
    | .error cause =>
      .fail (if cause.isSystem then .cache (.read c.profilePath.text cause) else .tree cause)
  else return none

def sayMiss (c : Cache) (message : String) : Outcome Unit :=
  .say .debug ("Profile cache miss for " ++ c.project.directory.text ++ ": " ++ message)

/-- Whether the stored checksum is that of the sources as they are now. -/
def matchesSources (c : Cache) (t : τ) : Except Failure Bool := do
  let stored ← (FileTree.read t c.checksumPath.text).mapError Failure.tree
  let current ← c.project.checksum t
  return String.ofList (Text.trim stored.toList) = current

/-- A failure of the tree is a miss; any other failure remains one. -/
def missOnTreeError (c : Cache) (result : Except Failure Bool) : Outcome Bool :=
  match result with
  | .ok b => .ok b
  | .error (.tree cause) =>
    if cause.isSystem then do
      c.sayMiss cause.message
      return false
    else .fail (.tree cause)
  | .error e => .fail e

/-- Whether a cached profile can be used: it can be read, it is fresh and it fits the sources. -/
def isValid (c : Cache) (t : τ) (now : Timestamp) : Outcome Bool := do
  match ← (c.load t now).attempt with
  | .error (.cache fault) =>
    c.sayMiss fault.message
    return false
  | .error e => .fail e
  | .ok none => return false
  | .ok (some p) =>
    if c.isStale p now then return false else c.missOnTreeError (c.matchesSources t)

end Cache

end JavaProfile
