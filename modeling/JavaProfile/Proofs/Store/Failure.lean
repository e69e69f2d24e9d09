import JavaProfile.Proofs.Profile.Document
import JavaProfile.Proofs.Project.Sources
import JavaProfile.Proofs.Store.Root
import JavaProfile.Proofs.Store.Use
import JavaProfile.Store.Info

/-!
How using a cache can fail. A cached document that is no profile is as good as none, unless reading
it ends with a failure that loading does not expect.
-/

namespace JavaProfile.Cache

open Work

variable {τ : Type} [FileTree τ]

/-- A text that goes beyond a limit of JSON, or that is a document of the current version whose time
of detection goes beyond the years 1 to 9999. -/
def Jams (text : String) : Prop :=
  (∃ refusal, Json.read text = .error refusal ∧ refusal.isMalformed = false) ∨
    ∃ fields v, Json.read text = .ok (.object fields) ∧
      isCurrent (Json.field? fields Field.schemaVersion.name) = true ∧
      Json.field? fields Field.detectedAt.name = some v ∧
      Schema.readTimestamp v = .error .dateOutOfRange

/-- There may be a profile, or a failure that users of a cache expect. -/
def Settled (result : Except Failure (Option Profile)) : Prop :=
  (∃ p, result = .ok p) ∨ ∃ fault, result = .error (.cache fault)

theorem settled_error {e : Failure} : Settled (.error e) ↔ ∃ fault, e = .cache fault := by
  simp [Settled]

/-- The test whether a text jams. -/
def jams (text : String) : Bool :=
  match Json.read text with
  | .error refusal => !refusal.isMalformed
  | .ok (.object fields) =>
    isCurrent (Json.field? fields Field.schemaVersion.name) &&
      ((Json.field? fields Field.detectedAt.name).map Schema.readTimestamp).any
        (· matches .error .dateOutOfRange)
  | .ok _ => false

theorem jams_iff {text : String} : jams text = true ↔ Jams text := by
  unfold jams Jams
  cases Json.read text with
  | error refusal => simp
  | ok v =>
    cases v with
    | object fields =>
      cases hfield : Json.field? fields Field.detectedAt.name with
      | none => simp [hfield]
      | some v =>
        cases hread : Schema.readTimestamp v with
        | ok t => simp [hfield, hread]
        | error r => cases r <;> simp [hfield, hread]
    | _ => simp

instance : DecidablePred Jams := fun _ => decidable_of_iff _ jams_iff

/-! ### Loading -/

variable [AnsweringTree τ]

variable {c : Cache} {t : τ} {s : Session τ} {now : Timestamp}

theorem matchesSources_settled (htakes : AnsweringTree.Takes τ c.checksumPath.text)
    (hsound : AnsweringTree.Sound t) :
    ∃ b, (c.missOnTreeError (c.matchesSources t)).result = .ok b := by
  rw [missOnTreeError_result]
  cases hmatches : c.matchesSources t with
  | ok b => exact ⟨b, rfl⟩
  | error e =>
    have hcause : ∃ cause, e = .tree cause ∧ cause.isSystem = true := by
      rw [matchesSources] at hmatches
      cases hstored : FileTree.read t c.checksumPath.text with
      | error cause =>
        rw [hstored] at hmatches
        cases hmatches
        exact ⟨cause, rfl, AnsweringTree.read_error hsound htakes hstored⟩
      | ok stored =>
        rw [hstored] at hmatches
        cases hcurrent : c.project.checksum t with
        | error e' =>
          rw [hcurrent] at hmatches
          cases hmatches
          exact Project.checksum_error hsound hcurrent
        | ok current =>
          rw [hcurrent] at hmatches
          cases hmatches
    obtain ⟨cause, rfl, hsystem⟩ := hcause
    dsimp only
    rw [if_pos hsystem]
    exact ⟨false, rfl⟩

theorem isValid_settled (htakes : AnsweringTree.Takes τ c.checksumPath.text)
    (hsound : AnsweringTree.Sound t) (now : Timestamp) :
    (∃ b, (c.isValid t now).result = .ok b) ↔ Settled (c.load t now).result := by
  rw [isValid_result]
  rcases (c.load t now).result with e | _ | p
  · cases e
    case cache fault => exact ⟨fun _ => .inr ⟨fault, rfl⟩, fun _ => ⟨false, rfl⟩⟩
    all_goals simp [settled_error]
  · exact ⟨fun _ => .inl ⟨none, rfl⟩, fun _ => ⟨false, rfl⟩⟩
  · refine ⟨fun _ => .inl ⟨some p, rfl⟩, fun _ => ?_⟩
    dsimp only
    split
    · exact ⟨false, rfl⟩
    · exact matchesSources_settled htakes hsound

end JavaProfile.Cache
