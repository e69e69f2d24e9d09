import JavaProfile.Project.Detect
import JavaProfile.Store.Basic

/-!
Writing a cache, removing it, and using it: a profile comes from the cache as long as that is
valid, and from a new detection otherwise.
-/

namespace JavaProfile.Cache

variable {τ : Type} [FileTree τ]

def makeDirectory (c : Cache) : Work τ Unit := do
  match ← Work.change fun s => FileTree.makeDirectories s.tree c.directory.text with
  | .ok () => return ()
  | .error cause =>
    throw (if cause.isSystem then .cache (.create c.directory.text cause) else .tree cause)

def writeProfile (c : Cache) (p : Profile) : Work τ Unit := do
  match ← Work.change fun s => FileTree.write s.tree s.clock c.profilePath.text p.document with
  | .ok () => return ()
  | .error cause =>
    throw (if cause.isSystem then .cache (.write c.profilePath.text cause) else .tree cause)

def sayUnwritten (c : Cache) (cause : TreeError) : Work τ Unit :=
  Work.say .warning
    ("Failed to write profile checksum for " ++ c.project.directory.text ++ ": " ++ cause.message)

/-- Writes a checksum. A cache without one is not valid, so no harm is done if this fails. -/
def writeChecksum (c : Cache) (checksum : String) : Work τ Unit := do
  match ← Work.change fun s => FileTree.write s.tree s.clock c.checksumPath.text checksum with
  | .ok () => return ()
  | .error cause => if cause.isSystem then c.sayUnwritten cause else throw (.tree cause)

def sealSources (c : Cache) : Work τ Unit := do
  match c.project.checksum (← get).tree with
  | .ok checksum => c.writeChecksum checksum
  | .error (.tree cause) => if cause.isSystem then c.sayUnwritten cause else throw (.tree cause)
  | .error e => throw e

/-- Writes a profile, stamped with the time of writing, and the checksum of the sources. -/
def save (c : Cache) (p : Profile) : Work τ Profile := do
  c.makeDirectory
  let stamped := { p with detectedAt := (← get).now }
  c.writeProfile stamped
  c.sealSources
  return stamped

def clear (c : Cache) : Work τ Unit := do
  if ← Work.onTree fun t => FileTree.isDirectory t c.directory.text then
    match ← Work.change fun s => FileTree.removeTree s.tree c.directory.text with
    | .ok () => return ()
    | .error cause =>
      throw (if cause.isSystem then .cache (.remove c.directory.text cause) else .tree cause)

def isValidNow (c : Cache) : Work τ Bool :=
  Work.ofOutcome fun s => c.isValid s.tree s.now

def loadNow (c : Cache) : Work τ (Option Profile) :=
  Work.ofOutcome fun s => c.load s.tree s.now

/-- The cached profile, if it can be used as it is. -/
def reuse? (c : Cache) : Work τ (Option Profile) := do
  if ← c.isValidNow then
    match ← c.loadNow with
    | some p =>
      Work.say .debug ("Using cached profile for " ++ c.project.directory.text)
      return some p
    | none => return none
  else return none

/-- The profile whose locks a new one keeps. One that cannot be read has none. -/
def previous? (c : Cache) : Work τ (Option Profile) := do
  match ← Work.attempt (c.loadNow : Work τ (Option Profile)) with
  | .ok p => return p
  | .error (.cache fault) =>
    Work.say .debug ("Discarding unreadable cached profile: " ++ fault.message)
    return none
  | .error e => throw e

/-- A profile that could not be saved. It has its stamp already when only its file is missing. -/
def unsaved (p : Profile) (now : Timestamp) : CacheFault → Profile
  | .write _ _ => { p with detectedAt := now }
  | _ => p

/-- The profile as saved, or as it is if it cannot be saved. -/
def saveIfPossible (c : Cache) (p : Profile) : Work τ Profile := do
  match ← Work.attempt (c.save p : Work τ Profile) with
  | .ok stamped => return stamped
  | .error (.cache fault) =>
    Work.say .warning
      ("Failed to cache profile for " ++ c.project.directory.text ++ ": " ++ fault.message)
    return unsaved p (← get).now fault
  | .error e => throw e

/-- Detects anew, keeps what was locked, and saves the result. -/
def detectAgain (c : Cache) : Work τ Profile := do
  let previous ← c.previous?
  let fresh ← c.project.detect
  c.saveIfPossible (match previous with
    | some p => fresh.carryLockedFrom p
    | none => fresh)

/-- The profile of the project, from the cache if that is valid and no refresh is asked for. -/
def loadOrDetect (c : Cache) (refresh : Bool) : Work τ Profile := do
  match ← (if refresh then pure none else c.reuse?) with
  | some p => return p
  | none => c.detectAgain

end JavaProfile.Cache
