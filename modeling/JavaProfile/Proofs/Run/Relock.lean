import JavaProfile.Proofs.Run.Current
import JavaProfile.Proofs.Run.Plain
import JavaProfile.Proofs.Run.Visit

/-!
A run in which a plain project is detected, and later something in its profile is locked.
-/

namespace JavaProfile.Cache

open MemoryTree Work

variable {c user : Cache}

theorem call_locks {τ : Type} [FileTree τ] [LawfulTree τ] [OverwritingTree τ] {s : Session τ}
    {P : Profile → Prop} (hfresh : ∀ p : Profile, p.Unlocked → P p)
    (hsame : ∀ p q : Profile, p.SameLocks q → P p → P q) (hinert : c.Inert s.tree)
    (hload : ∀ now q, (c.load s.tree now).result = .ok (some q) → P q)
    (hdirectory : user.project.directory = c.project.directory) (refresh : Bool) :
    ∀ now q, (c.load (runs (user.loadOrDetect refresh) s).2.tree now).result = .ok (some q) →
      P q := by
  intro now q hq
  rcases call_loads hdirectory hinert hq with hbefore | ⟨-, x, hx, rfl⟩
  · exact hload now q hbefore
  · refine hsame x _ (.stamped x _) ?_
    obtain ⟨previous, fresh, hprevious, hfound, rfl⟩ := hx
    have hunlocked := Project.detected_unlocked hfound
    cases previous with
    | none => exact hfresh _ hunlocked
    | some p =>
      have hcached := load_of_previous hprevious
      rw [load_congr hdirectory] at hcached
      exact hsame p _ (.carry hunlocked p) (hload _ p hcached)

/-- What is detected of the project with some source file. -/
def plainDetected (source : StoredFile) : Profile :=
  (plainScan source plainTest).profile atRoot.project.directory plainSession.now

theorem detectedAt_plainDetected (source : StoredFile) :
    (plainDetected source).detectedAt = plainSession.now := by
  rw [plainDetected, Scan.profile]

theorem storable_plainDetected (source : StoredFile) : (plainDetected source).Storable :=
  Scan.storable_profile _ _ _

/-- The profile of the project once a command has locked some targets. -/
def plainLocked (targets : List LockTarget) (x : Float) : Profile :=
  (targets.foldl (fun p t => t.setLocked true p) (plainDetected plainSource)).stamped
    (.ofClock (.double x))

theorem storable_plainLocked (targets : List LockTarget) (x : Float) :
    (plainLocked targets x).Storable :=
  (LockTarget.storable_foldl true targets (storable_plainDetected _)).stamped _

/-- The project is detected, and later something in its profile is locked. -/
theorem visits_locked {T : Timestamp → Timestamp → Prop} {x : Float} {names : List String}
    {targets : List LockTarget}
    (hread : Command.read ("lock" :: "/" :: names) = .ok (.run ⟨.lock, [], "/" :: names⟩))
    (hnames : names ≠ []) (htargets : Command.lockTargets names = .ok targets)
    (hclock : T plainSession.now (.ofClock (.double x)))
    (hstale : atRoot.isStale (plainDetected plainSource) (.ofClock (.double x)) = false)
    {P : Profile → Prop} (hfresh : ∀ p : Profile, p.Unlocked → P p)
    (hsame : ∀ p q : Profile, p.SameLocks q → P p → P q) (hlocked : P (plainLocked targets x)) :
    ∃ k s₁ s₂, plainChecksum plainSource = .ok k ∧
      Visits atRoot (fun t => ∀ now q, (atRoot.load t now).result = .ok (some q) → P q) T
        plainSession [⟨s₁, .command ("lock" :: "/" :: names)⟩, ⟨plainSession, .call atRoot false⟩]
        s₂ ∧
      s₁.clock = x ∧ s₁.settings = {} ∧ (atRoot.isValid s₁.tree s₁.now).result = .ok true ∧
      s₁.SameMoment s₂ ∧
      s₂.tree = cached plainSource plainTest ⟨(plainLocked targets x).document, .double x⟩
        ⟨k, .double x⟩ := by
  obtain ⟨k, hk⟩ := hashed_plain
  have hcalls (s : Session MemoryTree)
      (hload : ∀ now q, (atRoot.load s.tree now).result = .ok (some q) → P q) (user : Cache)
      (hdirectory : user.project.directory = atRoot.project.directory) (refresh : Bool) :=
    call_locks hfresh hsame (inert_memory atRoot s.tree) hload hdirectory refresh
  have hbare : ∀ now q, (atRoot.load plainSession.tree now).result = .ok (some q) → P q := by
    intro now q hq
    rw [load_of_absent absent_plain] at hq
    cases hq
  obtain ⟨s₀, hrun, hmoment, htree⟩ := loadOrDetect_bare (s := plainSession) hk false rfl
  have hafter : Visit.after ⟨plainSession, .call atRoot false⟩ = s₀ := congrArg Prod.snd hrun
  have hstart : Visits atRoot (fun t => ∀ now q, (atRoot.load t now).result = .ok (some q) → P q)
      T plainSession [] plainSession := .start hbare
  have hfirst := hstart.visit (.call atRoot false) rfl
    (fun user hdirectory => hcalls plainSession hbare user hdirectory false)
    (hcalls plainSession hbare atRoot rfl false)
  rw [hafter] at hfirst
  have hlater := hfirst.clock x (by rw [hmoment.now]; exact hclock)
  set s₁ : Session MemoryTree := { s₀ with clock := x }
  obtain ⟨-, hmoment₂, htree₂⟩ := locks_cached (s := s₁) hk hread rfl rfl hnames htargets
    (storable_plainDetected plainSource) hstale hmoment.settings htree
  rw [← Visit.after_command] at hmoment₂ htree₂
  change _ = cached plainSource plainTest ⟨(plainLocked targets x).document, .double x⟩
    ⟨k, .double x⟩ at htree₂
  have hreal : FileTree.realPath s₁.tree "/" = .ok atRoot.project.directory := by
    have habsolute : (Path.ofString "/").absolute = ⟨.single, []⟩ := by decide +kernel
    exact congrArg Except.ok habsolute
  have hvalid : (atRoot.isValid s₁.tree s₁.now).result = .ok true := by
    rw [show s₁.tree = s₀.tree from rfl, htree]
    exact isValid_cached hk (storable_plainDetected plainSource) hstale
  have hsecond := hlater.visit (.command ("lock" :: "/" :: names))
    ⟨_, true, hread, rfl, fun path names h => by cases h; exact hreal⟩
    (fun user hdirectory => hcalls s₁ hlater.moment user hdirectory false)
    (by
      rw [htree₂]
      intro now q hq
      rw [load_cached (storable_plainLocked targets x)] at hq
      cases hq
      exact hlocked)
  exact ⟨k, s₁, _, hk, hsecond, rfl, hmoment.settings, hvalid, hmoment₂, htree₂⟩

end JavaProfile.Cache
