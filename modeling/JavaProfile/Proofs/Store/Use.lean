import JavaProfile.Proofs.Project.Sources
import JavaProfile.Proofs.Store.Save

/-!
Using a cache: what its operations give and what they leave, in terms of loading, scanning and
saving.
-/

namespace JavaProfile

/-- A new profile with what an earlier one keeps, if there is an earlier one. -/
def Profile.carryFrom? (fresh : Profile) : Option Profile → Profile
  | some p => fresh.carryLockedFrom p
  | none => fresh

namespace Cache

open Work

variable {τ : Type} [FileTree τ] (c : Cache) (s : Session τ)

theorem reuse_runs :
    ∃ s', s.Quiet s' ∧ runs c.reuse? s =
      ((c.isValid s.tree s.now).result.bind fun valid =>
        if valid then (c.load s.tree s.now).result else .ok none, s') := by
  have hvalid := runs_ofOutcome (fun s : Session τ => c.isValid s.tree s.now) s
  have hload := runs_ofOutcome (fun s : Session τ => c.load s.tree s.now)
    (s.say (c.isValid s.tree s.now).log)
  have hquiet := Session.Quiet.say s (c.isValid s.tree s.now).log
  rw [reuse?, isValidNow, runs_bind, hvalid]
  cases (c.isValid s.tree s.now).result with
  | error e => exact ⟨_, hquiet, rfl⟩
  | ok valid =>
    cases valid with
    | false => exact ⟨_, hquiet, rfl⟩
    | true =>
      dsimp only [Except.bind]
      rw [if_pos rfl, if_pos rfl, loadNow, runs_bind, hload, hquiet.now, hquiet.tree]
      have hquiet' := hquiet.trans (Session.Quiet.say _ (c.load s.tree s.now).log)
      cases (c.load s.tree s.now).result with
      | error e => exact ⟨_, hquiet', rfl⟩
      | ok p =>
        cases p with
        | none => exact ⟨_, hquiet', rfl⟩
        | some p => exact ⟨_, hquiet'.trans (Session.Quiet.say _ _), rfl⟩

/-- What is left of a loaded profile, or of the failure to load one, for its locks. -/
def previousOf : Except Failure (Option Profile) → Except Failure (Option Profile)
  | .ok p => .ok p
  | .error (.cache _) => .ok none
  | .error e => .error e

theorem previous_runs :
    ∃ s', s.Quiet s' ∧ runs c.previous? s = (previousOf (c.load s.tree s.now).result, s') := by
  have hload := runs_ofOutcome (fun s : Session τ => c.load s.tree s.now) s
  have hquiet := Session.Quiet.say s (c.load s.tree s.now).log
  rw [previous?, runs_bind, runs_attempt, loadNow, hload]
  dsimp only
  cases (c.load s.tree s.now).result with
  | ok p => exact ⟨_, hquiet, rfl⟩
  | error e =>
    cases e
    case cache fault => exact ⟨_, hquiet.trans (Session.Quiet.say _ _), rfl⟩
    all_goals exact ⟨_, hquiet, rfl⟩

/-- What is returned after an attempt to save a profile. -/
def savedOf (p : Profile) (now : Timestamp) : Except Failure Profile → Except Failure Profile
  | .ok q => .ok q
  | .error (.cache fault) => .ok (unsaved p now fault)
  | .error e => .error e

theorem saveIfPossible_runs (p : Profile) :
    ∃ s', (runs (c.save p) s).2.Quiet s' ∧ runs (c.saveIfPossible p) s =
      (savedOf p (runs (c.save p) s).2.now (runs (c.save p) s).1, s') := by
  rw [saveIfPossible, runs_bind, runs_attempt]
  dsimp only
  cases (runs (c.save p) s).1 with
  | ok q => exact ⟨_, Session.Quiet.refl _, rfl⟩
  | error e =>
    cases e
    case cache fault => exact ⟨_, Session.Quiet.say _ _, rfl⟩
    all_goals exact ⟨_, Session.Quiet.refl _, rfl⟩

/-- A new detection fails without a change, or is saved with what the cached profile keeps. -/
theorem detectAgain_cases :
    (∃ e s', s.Quiet s' ∧ runs c.detectAgain s = (.error e, s') ∧
      (previousOf (c.load s.tree s.now).result = .error e ∨
        (c.project.scan s.tree s.announces).result = .error e)) ∨
    ∃ previous scan s', s.Quiet s' ∧
      previousOf (c.load s.tree s.now).result = .ok previous ∧
      (c.project.scan s.tree s.announces).result = .ok scan ∧
      runs c.detectAgain s =
        runs (c.saveIfPossible
          ((scan.profile c.project.directory s.now).carryFrom? previous)) s' := by
  obtain ⟨s₁, hquiet, hprevious⟩ := c.previous_runs s
  obtain ⟨s₂, hquiet', hdetect⟩ := c.project.detect_runs s₁
  rw [hquiet.tree, hquiet.announces, hquiet.now] at hdetect
  cases hresult : previousOf (c.load s.tree s.now).result with
  | error e =>
    rw [hresult] at hprevious
    exact .inl ⟨e, s₁, hquiet, by rw [detectAgain, runs_bind_of_error hprevious], .inl rfl⟩
  | ok previous =>
    rw [hresult] at hprevious
    have hrun : runs c.detectAgain s = runs (do
        let fresh ← c.project.detect
        c.saveIfPossible (fresh.carryFrom? previous)) s₁ := by
      rw [detectAgain, runs_bind_of_ok hprevious]
      cases previous <;> rfl
    cases hscan : (c.project.scan s.tree s.announces).result with
    | error e =>
      rw [hscan] at hdetect
      have herror : runs c.project.detect s₁ = (.error e, s₂) := hdetect
      exact .inl ⟨e, s₂, hquiet.trans hquiet', by rw [hrun, runs_bind_of_error herror], .inr rfl⟩
    | ok scan =>
      rw [hscan] at hdetect
      have hok : runs c.project.detect s₁ =
        (.ok (scan.profile c.project.directory s.now), s₂) := hdetect
      refine .inr ⟨previous, scan, s₂, hquiet.trans hquiet', rfl, rfl, ?_⟩
      rw [hrun, runs_bind_of_ok hok]

/-- A profile is reused without a change, or detected again, unless validating fails. -/
theorem loadOrDetect_cases (refresh : Bool) :
    (∃ e s', s.Quiet s' ∧ runs (c.loadOrDetect refresh) s = (.error e, s') ∧ refresh = false ∧
      ((c.isValid s.tree s.now).result = .error e ∨
        (c.isValid s.tree s.now).result = .ok true ∧ (c.load s.tree s.now).result = .error e)) ∨
    (∃ p s', s.Quiet s' ∧ runs (c.loadOrDetect refresh) s = (.ok p, s') ∧ refresh = false ∧
      (c.isValid s.tree s.now).result = .ok true ∧
      (c.load s.tree s.now).result = .ok (some p)) ∨
    ∃ s', s.Quiet s' ∧ runs (c.loadOrDetect refresh) s = runs c.detectAgain s' ∧
      (refresh = true ∨ (c.isValid s.tree s.now).result = .ok false ∨
        (c.load s.tree s.now).result = .ok none) := by
  cases refresh with
  | true => exact .inr (.inr ⟨s, Session.Quiet.refl s, rfl, .inl rfl⟩)
  | false =>
    obtain ⟨s', hquiet, hreuse⟩ := c.reuse_runs s
    have hrun : runs (c.loadOrDetect false) s =
        match runs c.reuse? s with
        | (.ok a, s') => runs (match a with
            | some p => (pure p : Work τ Profile)
            | none => c.detectAgain) s'
        | (.error e, s') => (.error e, s') := by
      rw [loadOrDetect, if_neg Bool.false_ne_true, runs_bind]
      rcases runs c.reuse? s with ⟨_ | _ | _, _⟩ <;> rfl
    rw [hreuse] at hrun
    rw [hrun]
    cases hvalid : (c.isValid s.tree s.now).result with
    | error e => exact .inl ⟨e, s', hquiet, rfl, rfl, .inl rfl⟩
    | ok valid =>
      cases valid with
      | false => exact .inr (.inr ⟨s', hquiet, rfl, .inr (.inl rfl)⟩)
      | true =>
        dsimp only [Except.bind]
        rw [if_pos rfl]
        cases hload : (c.load s.tree s.now).result with
        | error e => exact .inl ⟨e, s', hquiet, rfl, rfl, .inr ⟨rfl, rfl⟩⟩
        | ok p =>
          cases p with
          | none => exact .inr (.inr ⟨s', hquiet, rfl, .inr (.inr rfl)⟩)
          | some p => exact .inr (.inl ⟨p, s', hquiet, rfl, rfl, rfl, rfl⟩)

theorem loadOrDetect_of_valid {p : Profile} {s : Session τ}
    (hvalid : (c.isValid s.tree s.now).result = .ok true)
    (hload : (c.load s.tree s.now).result = .ok (some p)) :
    ∃ s', s.Quiet s' ∧ runs (c.loadOrDetect false) s = (.ok p, s') := by
  rcases c.loadOrDetect_cases s false with ⟨e, s', -, -, -, herror | ⟨-, herror⟩⟩ |
    ⟨q, s', hquiet, hrun, -, -, hq⟩ | ⟨s', -, -, hfalse | hfalse | hfalse⟩
  · rw [hvalid] at herror
    cases herror
  · rw [hload] at herror
    cases herror
  · rw [hload] at hq
    cases hq
    exact ⟨s', hquiet, hrun⟩
  · cases hfalse
  · rw [hvalid] at hfalse
    cases hfalse
  · rw [hload] at hfalse
    cases hfalse

end Cache

end JavaProfile
