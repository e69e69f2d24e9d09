import JavaProfile.Proofs.Profile.Unlock

/-!
Fields that say one thing together. A detection sets them in accord, and so do locks that protect
either all of them or none.
-/

namespace JavaProfile

/-- Sets of fields that belong together. -/
inductive Bond where
  | architecture
  | keys
  | swagger
  | validation
  deriving DecidableEq

namespace Bond

def fields : Bond → List Field
  | architecture => [.architecture, .featureStyle, .featureModules]
  | keys => [.idType, .idGeneration]
  | swagger => [.hasSwagger, .swaggerStyle]
  | validation => [.hasValidation, .validationStyle]

/-- What the fields have to agree on. -/
def Agrees (p : Profile) : Bond → Prop
  | architecture =>
    (p.architecture = .feature ↔ p.featureStyle ≠ none) ∧
      (p.architecture = .feature → 2 ≤ p.featureModules.length) ∧
      (p.architecture ≠ .feature → p.featureModules = [])
  | keys => p.idType = "UUID" ↔ p.idGeneration = uuidGeneration
  | swagger => p.hasSwagger = true ↔ p.swaggerStyle ≠ .absent
  | validation => p.hasValidation = true ↔ p.validationStyle ≠ .absent

/-- The profile protects all fields of the set, or none. -/
def Whole (b : Bond) (p : Profile) : Prop :=
  (∀ f ∈ b.fields, p.Protects f) ∨ ∀ f ∈ b.fields, ¬ p.Protects f

variable {b : Bond} {f : Field} {p q : Profile}

theorem lockable (hf : f ∈ b.fields) : f.Lockable := by
  cases b
  all_goals
    simp only [fields, List.mem_cons, List.not_mem_nil, or_false] at hf
    rcases hf with rfl | rfl | rfl <;>
    · refine ⟨by decide, by decide, fun g => ?_⟩
      cases g <;> decide

theorem whole_of_unlocked (b : Bond) (h : p.Unlocked) : b.Whole p := by
  refine .inr fun f _ => ?_
  rintro (⟨g, hlocked, -⟩ | hname)
  · rw [h.groups g] at hlocked
    cases hlocked
  · rw [h.fields] at hname
    cases hname

theorem whole_sameLocks (h : p.SameLocks q) (hp : b.Whole p) : b.Whole q := by
  simpa only [Whole, h.protects] using hp

theorem agrees_congr (h : ∀ f ∈ b.fields, f.member.get p = f.member.get q) :
    b.Agrees p ↔ b.Agrees q := by
  cases b with
  | architecture =>
    have harchitecture : p.architecture = q.architecture := h .architecture (by decide)
    have hstyle : p.featureStyle = q.featureStyle := h .featureStyle (by decide)
    have hmodules : p.featureModules = q.featureModules := h .featureModules (by decide)
    rw [Agrees, Agrees, harchitecture, hstyle, hmodules]
  | keys =>
    have htype : p.idType = q.idType := h .idType (by decide)
    have hgeneration : p.idGeneration = q.idGeneration := h .idGeneration (by decide)
    rw [Agrees, Agrees, htype, hgeneration]
  | swagger =>
    have hpresent : p.hasSwagger = q.hasSwagger := h .hasSwagger (by decide)
    have hstyle : p.swaggerStyle = q.swaggerStyle := h .swaggerStyle (by decide)
    rw [Agrees, Agrees, hpresent, hstyle]
  | validation =>
    have hpresent : p.hasValidation = q.hasValidation := h .hasValidation (by decide)
    have hstyle : p.validationStyle = q.validationStyle := h .validationStyle (by decide)
    rw [Agrees, Agrees, hpresent, hstyle]

/-! ### Detection -/

/-- A project has the style of features only where two modules or more were found. -/
theorem agrees_decision (s : Scan) :
    let d : Decision Float := Decision.ofScan s
    (d.architecture = .feature ↔ d.featureStyle ≠ none) ∧
      (d.architecture = .feature → 2 ≤ d.featureModules.length) ∧
      (d.architecture ≠ .feature → d.featureModules = []) := by
  intro d
  -- Below two modules the feature style scores nothing, and what scores nothing never wins.
  have hscore : ((Confidence.zero : Float) < s.score .feature) → 2 ≤ s.featureModules.length := by
    intro hpositive
    by_contra hfew
    have hzero : (s.score .feature : Float) = Confidence.zero := by
      change s.featureScore = _
      rw [Scan.featureScore]
      exact if_pos (.inr (by omega))
    rw [hzero] at hpositive
    exact absurd hpositive (by decide)
  by_cases hempty : s.mainFiles = []
  · have hd : d = { architecture := .layered, confidence := Confidence.one } := if_pos hempty
    rw [hd]
    simp
  · set winner := Decision.best fun a => (s.score a : Float)
    by_cases hpositive : (Confidence.zero : Float) < s.score winner
    · have hd : d = { architecture := winner
                      confidence := s.score winner
                      scores := s.scores
                      featureModules := if winner = .feature then s.featureModules else []
                      featureStyle := if winner = .feature
                        then some (s.featureStyle s.featureModules) else none } :=
        (if_neg hempty).trans (if_pos hpositive)
      rw [hd]
      by_cases hfeature : winner = .feature
      · rw [hfeature] at hpositive
        simp [hfeature, hscore hpositive]
      · simp [hfeature]
    · have hd : d = { architecture := .layered, confidence := Confidence.one, scores := s.scores } :=
        (if_neg hempty).trans (if_neg hpositive)
      rw [hd]
      simp

theorem agrees_keyType (s : Scan) :
    s.keyType.name = "UUID" ↔ s.keyType.generation = uuidGeneration := by
  rw [Scan.keyType]
  split
  · decide
  · split <;> decide

theorem agrees_detected (b : Bond) (s : Scan) (directory : Path) (now : Timestamp) :
    b.Agrees (s.profile directory now) := by
  cases b with
  | architecture => exact agrees_decision s
  | keys => exact agrees_keyType s
  | swagger => simp [Agrees, Scan.profile]
  | validation => simp [Agrees, Scan.profile]

/-! ### Locks -/

theorem agrees_carry (hp : b.Agrees p) (hq : b.Agrees q) (hwhole : b.Whole q) :
    b.Agrees (p.carryLockedFrom q) := by
  rcases hwhole with hall | hnone
  · refine (agrees_congr fun f hf => ?_).mpr hq
    rw [Profile.get_carry, if_pos (Profile.keeps_of_protects (hall f hf))]
  · refine (agrees_congr fun f hf => ?_).mpr hp
    have hnot := hnone f hf
    rw [← Profile.keeps_iff_protects (lockable hf)] at hnot
    rw [Profile.get_carry, if_neg hnot]

end Bond

end JavaProfile
