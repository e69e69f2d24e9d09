import JavaProfile.Proofs.Command.Lock

/-!
What the reply to a command on locks tells: with status 0 the profile was saved with other locks.
-/

namespace JavaProfile.Command

open Work

variable {τ : Type} [FileTree τ] {s : Session τ} {locked : Bool} {names : List String}

theorem ofResult_status {opening : Option String} {result : Except Failure String}
    (h : (Reply.ofResult opening result).status = 0) : ∃ text, result = .ok text := by
  cases result with
  | ok text => exact ⟨text, rfl⟩
  | error e =>
    have hstatus : (Reply.ofResult opening (.error e)).status = 1 := by
      cases opening with
      | none => rfl
      | some words => cases hexpected : e.isExpected <;> simp [Reply.ofResult, hexpected]
    rw [hstatus] at h
    cases h

theorem runLocks_succeeds {context : Context} {b : Bound}
    (h : ((runLocks context locked b).run s).1.status = 0) :
    ∃ targets text, lockTargets b.names = .ok targets ∧
      runs (updateLocks locked b.project b.names targets) s =
        (.ok text, ((runLocks context locked b).run s).2) := by
  rw [runLocks] at h ⊢
  cases htargets : lockTargets b.names with
  | error m =>
    rw [htargets] at h
    cases h
  | ok targets =>
    rw [htargets] at h
    obtain ⟨text, htext⟩ := ofResult_status h
    exact ⟨targets, text, rfl, Prod.ext htext rfl⟩

section Running

variable {name : Name} (hname : name.changesLocks = some locked) (options : List String)

include hname

theorem runInvocation_locks (path : String) (names : List String) :
    (runInvocation ⟨name, options, path :: names⟩ : StateM (Session τ) Reply) =
      runOnProject name options path names := by
  cases name <;> first | rfl | cases hname

theorem takesFields_locks : (Context.command name).takesFields = true := by
  cases name <;> first | rfl | cases hname

theorem runBound_locks (b : Bound) :
    (runBound name options b : StateM (Session τ) Reply) =
      runLocks (.command name) locked b := by
  cases name <;> cases hname <;> rfl

end Running

variable {words : List String} {i : Invocation} {path text : String} {real : Path}
  {targets : List LockTarget} {s' : Session τ}

/-- A command on locks that ends with status 0 has updated the locks of a project. -/
theorem run_succeeds (hread : read words = .ok (.run i))
    (hname : i.name.changesLocks = some locked) (harguments : i.words.arguments = path :: names)
    (hreal : FileTree.realPath s.tree path = .ok real)
    (hstatus : ((run words).run s).1.status = 0) :
    ∃ targets text, lockTargets names = .ok targets ∧
      runs (updateLocks locked real names targets) s = (.ok text, ((run words).run s).2) := by
  rw [run_of_read hread] at hstatus ⊢
  obtain ⟨name, options, arguments⟩ := i
  dsimp only at hname harguments
  subst harguments
  rw [runInvocation_locks hname, runOnProject, StateT.run_bind, StateT.run_get, pure_bind]
    at hstatus ⊢
  dsimp only at hstatus ⊢
  rw [hreal] at hstatus ⊢
  dsimp only at hstatus ⊢
  cases hbound : projectOf s.tree path real >>=
      (bindFields (Context.command name).takesFields · names) with
  | error m =>
    rw [hbound] at hstatus
    cases hstatus
  | ok b =>
    rw [hbound] at hstatus
    obtain rfl := bound_eq hbound
    dsimp only at hstatus ⊢
    rw [runBound_locks hname] at hstatus ⊢
    exact runLocks_succeeds hstatus

theorem run_updates (hread : read words = .ok (.run i))
    (hname : i.name.changesLocks = some locked) (harguments : i.words.arguments = path :: names)
    (hreal : FileTree.realPath s.tree path = .ok real)
    (hdirectory : FileTree.isDirectory s.tree real.text = .ok true) (hnames : names ≠ [])
    (htargets : lockTargets names = .ok targets)
    (hupdate : runs (updateLocks locked real names targets) s = (.ok text, s')) :
    (run words).run s = (Reply.ofResult (some "Updating locks failed") (.ok text), s') := by
  rw [run_of_read hread]
  obtain ⟨name, options, arguments⟩ := i
  dsimp only at hname harguments
  subst harguments
  have hbound : (projectOf s.tree path real >>=
      (bindFields (Context.command name).takesFields · names)) = .ok ⟨real, names⟩ := by
    have hproject : projectOf s.tree path real = .ok real := by
      rw [projectOf, hdirectory]
    rw [hproject]
    change bindFields _ real names = _
    rw [takesFields_locks hname, bindFields, if_pos rfl, if_neg hnames]
  rw [runInvocation_locks hname, runOnProject, StateT.run_bind, StateT.run_get, pure_bind]
  dsimp only
  rw [hreal]
  dsimp only
  rw [hbound]
  dsimp only
  rw [runBound_locks hname, runLocks, htargets]
  change (Reply.ofResult _ (runs (updateLocks locked real names targets) s).1,
    (runs (updateLocks locked real names targets) s).2) = _
  rw [hupdate]

theorem updateLocks_succeeds {project : Path} (h : runs (updateLocks locked project names targets) s = (.ok text, s')) :
    ∃ (c : Cache) (p q : Profile) (s₁ : Session τ),
      Cache.ofSettings s.settings project none none none = .ok c ∧
      runs (c.loadOrDetect false) s = (.ok p, s₁) ∧
      runs (c.save (targets.foldl (fun p t => t.setLocked locked p) p)) s₁ = (.ok q, s') := by
  rw [updateLocks, runs_bind, openCache_runs] at h
  cases hcache : Cache.ofSettings s.settings project none none none with
  | error e =>
    rw [hcache] at h
    cases h
  | ok c =>
    rw [hcache] at h
    dsimp only at h
    rw [runs_bind] at h
    rcases hload : runs (c.loadOrDetect false) s with ⟨e | p, s₁⟩
    · rw [hload] at h
      cases h
    · rw [hload] at h
      dsimp only at h
      rw [runs_bind] at h
      rcases hsave : runs (c.save (targets.foldl (fun p t => t.setLocked locked p) p)) s₁ with
        ⟨e | q, s₂⟩
      · rw [hsave] at h
        cases h
      · rw [hsave] at h
        cases h
        exact ⟨c, p, q, s₁, rfl, hload, hsave⟩

theorem updateLocks_runs (names : List String) {project : Path} {c : Cache} {p q : Profile} {s₁ : Session τ}
    (hcache : Cache.ofSettings s.settings project none none none = .ok c)
    (hload : runs (c.loadOrDetect false) s = (.ok p, s₁))
    (hsave : runs (c.save (targets.foldl (fun p t => t.setLocked locked p) p)) s₁ = (.ok q, s')) :
    ∃ text, runs (updateLocks locked project names targets) s = (.ok text, s') := by
  rw [updateLocks, runs_bind, openCache_runs, hcache]
  dsimp only
  rw [runs_bind_of_ok hload, runs_bind_of_ok hsave]
  exact ⟨_, rfl⟩

end JavaProfile.Command
