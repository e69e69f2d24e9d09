import Mathlib.Logic.Function.Iterate
import JavaProfile.Proofs.Run.Loaded

/-!
Callers that take turns. Each of them loads or detects the profile of one project step by step, and
between two steps of one the others may go on. One that is left alone comes to what its call gives.
-/

namespace JavaProfile.Cache

open Work

variable {τ : Type} [FileTree τ]

/-- What saving does before it turns to the sources. -/
def writeStamped (c : Cache) (p : Profile) : Work τ Profile := do
  c.makeDirectory
  let stamped := p.stamped (← get).now
  c.writeProfile stamped
  return stamped

/-- How far a caller has come. The tree in which it saw the sources is noted beside. -/
inductive Stage (τ : Type) where
  | idle
  | begun (refresh : Bool)
  | missed
  | looked (previous : Option Profile)
  | scanned (p : Profile) (seen : τ)
  | stored (p : Profile)
  | hashed (p : Profile) (k : String) (seen : τ)
  | ended (result : Except Failure Profile)

/-- A session that callers share. Of the files of the cache it is noted what was written last, and
in which tree that was found out. -/
structure Shared (τ : Type) where
  session : Session τ
  stage : ℕ → Stage τ
  profile? : Option (Profile × τ)
  checksum? : Option (String × τ)

namespace Shared

/-- No caller has begun, and nothing is known of the cache. -/
def start (s : Session τ) : Shared τ :=
  ⟨s, fun _ => .idle, none, none⟩

def enter (m : Shared τ) (i : ℕ) (stage : Stage τ) (s : Session τ) : Shared τ :=
  { m with session := s, stage := Function.update m.stage i stage }

/-- The next step of a caller. What fails is over in one step. -/
def advance (c : Cache) (i : ℕ) (m : Shared τ) : Shared τ :=
  match m.stage i with
  | .idle | .ended _ => m
  | .begun refresh =>
    match runs (if refresh then pure none else c.reuse?) m.session with
    | (.ok (some p), s) => m.enter i (.ended (.ok p)) s
    | (.ok none, s) => m.enter i .missed s
    | (.error e, s) => m.enter i (.ended (.error e)) s
  | .missed =>
    match runs c.previous? m.session with
    | (.ok previous, s) => m.enter i (.looked previous) s
    | (.error e, s) => m.enter i (.ended (.error e)) s
  | .looked previous =>
    match runs c.project.detect m.session with
    | (.ok fresh, s) => m.enter i (.scanned (fresh.carryFrom? previous) m.session.tree) s
    | (.error e, s) => m.enter i (.ended (.error e)) s
  | .scanned p seen =>
    match runs (c.writeStamped p) m.session with
    | (.ok stamped, s) => { m.enter i (.stored stamped) s with profile? := some (stamped, seen) }
    | (.error _, _) =>
      m.enter i (.ended (runs (c.saveIfPossible p) m.session).1)
        (runs (c.saveIfPossible p) m.session).2
  | .stored p =>
    match c.project.checksum m.session.tree with
    | .ok k => m.enter i (.hashed p k m.session.tree) m.session
    | .error _ =>
      m.enter i (.ended ((runs c.sealSources m.session).1.map fun _ => p))
        (runs c.sealSources m.session).2
  | .hashed p k seen =>
    { m.enter i (.ended ((runs (c.writeChecksum k) m.session).1.map fun _ => p))
        (runs (c.writeChecksum k) m.session).2 with
      checksum? :=
        if (FileTree.write m.session.tree m.session.clock c.checksumPath.text k).2.isOk then
          some (k, seen)
        else m.checksum? }

/-- With so many steps a caller comes to the end of some work. -/
def Gives (c : Cache) (i n : ℕ) (m : Shared τ) (run : Except Failure Profile × Session τ) : Prop :=
  ((advance c i)^[n] m).session = run.2 ∧ ((advance c i)^[n] m).stage i = .ended run.1

variable {c : Cache} {m : Shared τ} {i : ℕ} {p stamped : Profile} {previous : Option Profile}
  {k : String} {seen : τ} {s : Session τ}

omit [FileTree τ] in
@[simp]
theorem stage_enter (m : Shared τ) (i : ℕ) (stage : Stage τ) (s : Session τ) :
    (m.enter i stage s).stage i = stage :=
  Function.update_self ..

omit [FileTree τ] in
theorem enter_enter (m : Shared τ) (i : ℕ) (stage stage' : Stage τ) (s s' : Session τ) :
    (m.enter i stage s).enter i stage' s' = m.enter i stage' s' := by
  rw [enter, enter, enter, Function.update_idem]

theorem advance_begun (h : m.stage i = .begun false)
    (hruns : runs c.reuse? m.session = (.ok none, s)) : m.advance c i = m.enter i .missed s := by
  unfold advance
  rw [h]
  dsimp only
  rw [if_neg Bool.false_ne_true, hruns]

theorem advance_missed (h : m.stage i = .missed)
    (hruns : runs c.previous? m.session = (.ok previous, s)) :
    m.advance c i = m.enter i (.looked previous) s := by
  unfold advance
  rw [h]
  dsimp only
  rw [hruns]

theorem advance_looked (h : m.stage i = .looked previous)
    (hruns : runs c.project.detect m.session = (.ok p, s)) :
    m.advance c i = m.enter i (.scanned (p.carryFrom? previous) m.session.tree) s := by
  unfold advance
  rw [h]
  dsimp only
  rw [hruns]

theorem advance_scanned (h : m.stage i = .scanned p seen)
    (hruns : runs (c.writeStamped p) m.session = (.ok stamped, s)) :
    m.advance c i =
      { m.enter i (.stored stamped) s with profile? := some (stamped, seen) } := by
  unfold advance
  rw [h]
  dsimp only
  rw [hruns]

theorem advance_stored (h : m.stage i = .stored p)
    (hk : c.project.checksum m.session.tree = .ok k) :
    m.advance c i = m.enter i (.hashed p k m.session.tree) m.session := by
  unfold advance
  rw [h]
  dsimp only
  rw [hk]

theorem advance_hashed (h : m.stage i = .hashed p k seen)
    (hwrite : (FileTree.write m.session.tree m.session.clock c.checksumPath.text k).2 = .ok ())
    (hruns : runs (c.writeChecksum k) m.session = (.ok (), s)) :
    m.advance c i = { m.enter i (.ended (.ok p)) s with checksum? := some (k, seen) } := by
  unfold advance
  rw [h]
  dsimp only
  rw [hruns, hwrite]
  rfl

/-! ### A caller that is left alone -/

theorem Gives.succ {n : ℕ} {run : Except Failure Profile × Session τ}
    (h : (m.advance c i).Gives c i n run) : m.Gives c i (n + 1) run :=
  h

theorem gives_ended {r : Except Failure Profile} (h : m.stage i = .ended r) (n : ℕ) :
    m.Gives c i n (r, m.session) := by
  have hstays : m.advance c i = m := by
    unfold advance
    rw [h]
  rw [Gives, Function.iterate_fixed hstays]
  exact ⟨rfl, h⟩

theorem gives_enter_ended (m : Shared τ) (r : Except Failure Profile × Session τ) (n : ℕ) :
    (m.enter i (.ended r.1) r.2).Gives c i n r :=
  gives_ended (stage_enter ..) n

theorem gives_hashed (h : m.stage i = .hashed p k seen) (n : ℕ) :
    m.Gives c i (n + 1) ((runs (c.writeChecksum k) m.session).1.map fun _ => p,
      (runs (c.writeChecksum k) m.session).2) := by
  apply Gives.succ
  unfold advance
  rw [h]
  exact gives_ended (Function.update_self ..) n

theorem gives_stored (h : m.stage i = .stored p) (n : ℕ) :
    m.Gives c i (n + 2) ((runs c.sealSources m.session).1.map fun _ => p,
      (runs c.sealSources m.session).2) := by
  apply Gives.succ
  unfold advance
  rw [h]
  cases hk : c.project.checksum m.session.tree with
  | error e => exact gives_enter_ended m (_, _) (n + 1)
  | ok k =>
    have hruns : runs c.sealSources m.session = runs (c.writeChecksum k) m.session := by
      rw [sealSources, runs_bind, runs_get]
      dsimp only
      rw [hk]
    rw [hruns]
    exact gives_hashed (m := m.enter i _ _) (stage_enter ..) n

end Shared

/-! ### Saving in two steps -/

variable {c : Cache} {p : Profile} {s : Session τ}

theorem save_eq_writeStamped (c : Cache) (p : Profile) (s : Session τ) :
    runs (c.save p) s =
      match runs (c.writeStamped p) s with
      | (.ok stamped, s') =>
        ((runs c.sealSources s').1.map fun _ => stamped, (runs c.sealSources s').2)
      | (.error e, s') => (.error e, s') := by
  rw [save_runs, writeStamped, runs_bind]
  rcases runs c.makeDirectory s with ⟨e | ⟨⟩, s₁⟩
  · rfl
  · dsimp only
    rw [runs_bind, runs_get]
    dsimp only
    rw [runs_bind]
    rcases runs (c.writeProfile (p.stamped s₁.now)) s₁ with ⟨e | ⟨⟩, s₂⟩
    · rfl
    · dsimp only
      rw [runs_pure]
      dsimp only
      rcases runs c.sealSources s₂ with ⟨e | ⟨⟩, s₃⟩ <;> rfl

theorem saveIfPossible_of_writeStamped {stamped : Profile} {s' : Session τ}
    (h : runs (c.writeStamped p) s = (.ok stamped, s')) :
    runs (c.saveIfPossible p) s =
      ((runs c.sealSources s').1.map fun _ => stamped, (runs c.sealSources s').2) := by
  rw [saveIfPossible, runs_bind, runs_attempt, save_eq_writeStamped, h]
  dsimp only
  cases hseal : (runs c.sealSources s').1 with
  | ok u => rfl
  | error e =>
    cases e
    case cache fault => exact absurd hseal sealSources_ne_cache
    all_goals rfl

namespace Shared

variable {m : Shared τ} {i : ℕ}

theorem gives_scanned {seen : τ} (h : m.stage i = .scanned p seen) (n : ℕ) :
    m.Gives c i (n + 3) (runs (c.saveIfPossible p) m.session) := by
  apply Gives.succ
  unfold advance
  rw [h]
  dsimp only
  rcases hwrite : runs (c.writeStamped p) m.session with ⟨e | stamped, s⟩
  · exact gives_enter_ended m (runs (c.saveIfPossible p) m.session) (n + 2)
  · rw [saveIfPossible_of_writeStamped hwrite]
    exact gives_stored (c := c)
      (m := { m.enter i (.stored stamped) s with profile? := some (stamped, seen) })
      (Function.update_self ..) n

theorem gives_looked {previous : Option Profile} (h : m.stage i = .looked previous) (n : ℕ) :
    m.Gives c i (n + 4) (runs (do
      let fresh ← c.project.detect
      c.saveIfPossible (fresh.carryFrom? previous)) m.session) := by
  apply Gives.succ
  unfold advance
  rw [h, runs_bind]
  rcases runs c.project.detect m.session with ⟨e | fresh, s⟩
  · exact gives_enter_ended m (_, _) (n + 3)
  · exact gives_scanned (m := m.enter i _ _) (stage_enter ..) n

theorem gives_missed (h : m.stage i = .missed) (n : ℕ) :
    m.Gives c i (n + 5) (runs c.detectAgain m.session) := by
  apply Gives.succ
  unfold advance
  rw [h, detectAgain, runs_bind]
  rcases runs c.previous? m.session with ⟨e | previous, s⟩
  · exact gives_enter_ended m (_, _) (n + 4)
  · have hlooked := gives_looked (c := c) (m := m.enter i (.looked previous) s) (stage_enter ..) n
    cases previous <;> exact hlooked

/-- The steps of a caller, taken one after the other, are the call. -/
theorem gives_begun {refresh : Bool} (h : m.stage i = .begun refresh) :
    m.Gives c i 6 (runs (c.loadOrDetect refresh) m.session) := by
  obtain ⟨used, s, hused⟩ : ∃ used s,
      runs (if refresh then pure none else c.reuse?) m.session = (used, s) := ⟨_, _, rfl⟩
  apply Gives.succ
  unfold advance
  rw [h]
  dsimp only
  rw [hused, loadOrDetect, runs_bind, hused]
  rcases used with e | _ | p
  · exact gives_enter_ended m (_, s) 5
  · exact gives_missed (m := m.enter i .missed s) (stage_enter ..) 0
  · exact gives_enter_ended m (_, s) 5

end Shared

end JavaProfile.Cache
