import JavaProfile.Command.Run
import JavaProfile.Proofs.Store.Keep

/-!
Commands that lock and unlock. On one project they load or detect its profile and save it with other
locks, and do nothing else.
-/

namespace JavaProfile.Command

open Work

variable {τ : Type}

theorem openCache_runs (project : Path) (s : Session τ) :
    runs (openCache project) s = (Cache.ofSettings s.settings project none none none, s) :=
  rfl

variable [FileTree τ] {s : Session τ}

theorem run_of_read {words : List String} {i : Invocation} (h : read words = .ok (.run i)) :
    (run words : StateM (Session τ) Reply) = runInvocation i := by
  rw [run, h]

theorem runLocks_run (context : Context) (locked : Bool) (b : Bound) (s : Session τ) :
    ((runLocks context locked b).run s).2 = s ∨
      ∃ targets, lockTargets b.names = .ok targets ∧
        ((runLocks context locked b).run s).2 =
          (runs (updateLocks locked b.project b.names targets) s).2 := by
  rw [runLocks]
  cases lockTargets b.names with
  | ok targets => exact .inr ⟨targets, rfl, rfl⟩
  | error m => exact .inl rfl

theorem bound_eq {t : τ} {path : String} {real : Path} {takesFields : Bool} {names : List String}
    {b : Bound} (h : (projectOf t path real >>= (bindFields takesFields · names)) = .ok b) :
    b = ⟨real, names⟩ := by
  cases hproject : projectOf t path real with
  | error m =>
    rw [hproject] at h
    cases h
  | ok project =>
    rw [hproject] at h
    have hreal : project = real := by
      unfold projectOf at hproject
      split at hproject <;> cases hproject
      rfl
    subst hreal
    change bindFields takesFields project names = .ok b at h
    rw [bindFields] at h
    split at h
    · split at h
      · cases h
      · cases h
        rfl
    · split at h
      · next hnames =>
        cases h
        rw [hnames]
      · cases h

/-- The two commands on locks. -/
def Name.changesLocks : Name → Option Bool
  | .lock => some true
  | .unlock => some false
  | _ => none

theorem runOnProject_locks {name : Name} {locked : Bool} (hname : name.changesLocks = some locked)
    (options : List String) {path : String} {real : Path} (names : List String)
    (hreal : FileTree.realPath s.tree path = .ok real) :
    ((runOnProject name options path names).run s).2 = s ∨
      ∃ targets, lockTargets names = .ok targets ∧
        ((runOnProject name options path names).run s).2 =
          (runs (updateLocks locked real names targets) s).2 := by
  rw [runOnProject, StateT.run_bind, StateT.run_get, pure_bind]
  dsimp only
  rw [hreal]
  dsimp only
  cases hbound : projectOf s.tree path real >>=
      (bindFields (Context.command name).takesFields · names) with
  | error m => exact .inl rfl
  | ok b =>
    obtain rfl := bound_eq hbound
    cases name
    case lock =>
      cases hname
      exact runLocks_run (.command .lock) true ⟨real, names⟩ s
    case unlock =>
      cases hname
      exact runLocks_run (.command .unlock) false ⟨real, names⟩ s
    all_goals cases hname

/-- A command on locks does nothing to a project, or updates the locks of its profile. -/
theorem run_locks {words : List String} {i : Invocation} {locked : Bool} {real : Path}
    (hread : read words = .ok (.run i)) (hname : i.name.changesLocks = some locked)
    (hreal : ∀ path names, i.words.arguments = path :: names →
      FileTree.realPath s.tree path = .ok real) :
    ((run words).run s).2 = s ∨
      ∃ path names targets, i.words.arguments = path :: names ∧ lockTargets names = .ok targets ∧
        ((run words).run s).2 = (runs (updateLocks locked real names targets) s).2 := by
  rw [run_of_read hread]
  obtain ⟨name, options, arguments⟩ := i
  dsimp only at hname hreal ⊢
  cases arguments with
  | nil =>
    left
    cases name <;> rfl
  | cons path names =>
    have hproject := runOnProject_locks (s := s) hname options names (hreal path names rfl)
    have hrun : (runInvocation ⟨name, options, path :: names⟩ : StateM (Session τ) Reply) =
        runOnProject name options path names := by
      cases name <;> first | rfl | cases hname
    rw [hrun]
    exact hproject.imp_right fun ⟨targets, htargets, heq⟩ =>
      ⟨path, names, targets, rfl, htargets, heq⟩

/-! ### Updating locks -/

theorem directory_of_settings {settings : Settings} {project : Path} {c : Cache}
    {source test : Option String} {lifetime : Option Duration}
    (h : Cache.ofSettings settings project source test lifetime = .ok c) :
    c.project.directory = project := by
  cases lifetime with
  | some d =>
    cases h
    rfl
  | none =>
    change (settings.lifetime.mapError Failure.duration).bind (fun d => Except.ok (Cache.mk
      ⟨project, ⟨source.getD settings.roots.main, test.getD settings.roots.test⟩⟩ d)) = _ at h
    cases hlifetime : settings.lifetime.mapError Failure.duration with
    | error e =>
      rw [hlifetime] at h
      cases h
    | ok d =>
      rw [hlifetime] at h
      cases h
      rfl

theorem updateLocks_cases (locked : Bool) (project : Path) (names : List String)
    (targets : List LockTarget) (s : Session τ) :
    (runs (updateLocks locked project names targets) s).2 = s ∨
      ∃ c, Cache.ofSettings s.settings project none none none = .ok c ∧
        ((∃ e, (runs (c.loadOrDetect false) s).1 = .error e ∧
          (runs (updateLocks locked project names targets) s).2 =
            (runs (c.loadOrDetect false) s).2) ∨
        ∃ p, (runs (c.loadOrDetect false) s).1 = .ok p ∧
          (runs (updateLocks locked project names targets) s).2 =
            (runs (c.save (targets.foldl (fun p t => t.setLocked locked p) p))
              (runs (c.loadOrDetect false) s).2).2) := by
  rw [updateLocks, runs_bind, openCache_runs]
  cases hcache : Cache.ofSettings s.settings project none none none with
  | error e => exact .inl rfl
  | ok c =>
    refine .inr ⟨c, rfl, ?_⟩
    dsimp only
    rw [runs_bind]
    rcases runs (c.loadOrDetect false) s with ⟨e | p, s₁⟩
    · exact .inl ⟨e, rfl, rfl⟩
    · right
      refine ⟨p, rfl, ?_⟩
      dsimp only
      rw [runs_bind]
      split
      · next heq =>
        rw [heq]
        rfl
      · next heq => rw [heq]

open Cache

variable {c : Cache} {f : Field} {v : f.member.Value} {r : Session (Recorded τ)}
  {base : List WriteRecord} [LawfulTree τ]

theorem updateLocks_kept (hf : f.Lockable) (hkept : c.Kept f v base r) {locked : Bool}
    {names : List String} {targets : List LockTarget}
    (hnames : locked = true ∨ ∀ target ∈ targets, ¬ target.Names f)
    (hwritten : (runs (updateLocks locked c.project.directory names targets) r).2.tree.AllWritten)
    (hapart : c.Apart (runs (updateLocks locked c.project.directory names targets) r).2.tree) :
    c.Kept f v base (runs (updateLocks locked c.project.directory names targets) r).2 := by
  rcases updateLocks_cases locked c.project.directory names targets r with hstate |
    ⟨user, hcache, ⟨e, -, hstate⟩ | ⟨p, hp, hstate⟩⟩
  · rw [hstate]
    exact hkept
  · have hdirectory := directory_of_settings hcache
    have huser := hkept.congr hdirectory.symm
    rw [hstate] at hwritten hapart ⊢
    exact (loadOrDetect_kept hf huser false hwritten (hapart.congr hdirectory.symm)).1.congr
      hdirectory
  · have hdirectory := directory_of_settings hcache
    have huser := hkept.congr hdirectory.symm
    rw [hstate] at hwritten hapart ⊢
    have hlast := hapart.congr hdirectory.symm
    have hfirst := user.loadOrDetect_grows false r
    have hsecond := user.save_grows (targets.foldl (fun p t => t.setLocked locked p) p)
      (runs (user.loadOrDetect false) r).2
    obtain ⟨l, hl⟩ := huser.place
    have hmiddle := hlast.of_grows hsecond ⟨l, hfirst.place hl⟩
    obtain ⟨hloaded, hresult⟩ := loadOrDetect_kept hf huser false
      (fun w hw => hwritten w (hsecond.writes hw)) hmiddle
    obtain ⟨hstorable, hholds⟩ := hresult p hp
    exact (save_kept hf hloaded (LockTarget.storable_foldl locked targets hstorable)
      (LockTarget.holds_foldl hf hnames hholds) hwritten hlast).1.congr hdirectory

end JavaProfile.Command
