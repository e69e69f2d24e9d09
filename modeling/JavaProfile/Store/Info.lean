import JavaProfile.Store.Basic

/-!
A description of a cache, as tools and people are shown it.
-/

namespace JavaProfile

inductive CacheState where
  | absent
  | unusable (reason : String)
  | present (valid stale : Bool) (profile : Profile)

namespace CacheState

def isPresent : CacheState → Bool
  | absent => false
  | _ => true

def isValid : CacheState → Bool
  | present valid _ _ => valid
  | _ => false

/-- What is known beyond the presence of a profile. -/
def details : CacheState → Json.Fields
  | absent => []
  | unusable reason => [("error", .string reason)]
  | present _ stale p =>
    [("detected_at", .string p.detectedAt.write), ("stale", .bool stale),
     ("architecture", .string (label p.architecture)), ("arch_confidence", .double p.confidence),
     ("base_package", .string p.basePackage)]

def describe (s : CacheState) (c : Cache) : Json :=
  let always : Json.Fields :=
    [("project_dir", .string c.project.directory.text), ("cache_dir", .string c.directory.text),
     ("exists", .bool s.isPresent), ("valid", .bool s.isValid)]
  .object (always ++ s.details)

end CacheState

variable {τ : Type} [FileTree τ]

def Cache.state (c : Cache) (t : τ) (now : Timestamp) : Outcome CacheState := do
  if !(← Outcome.ofExcept id (c.isPresent t)) then return .absent
  match ← (c.load t now).attempt with
  | .error (.cache fault) => return .unusable fault.message
  | .error e => .fail e
  | .ok none => return .unusable "schema version mismatch"
  | .ok (some p) => return .present (← c.isValid t now) (c.isStale p now) p

end JavaProfile
