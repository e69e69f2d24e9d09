import JavaProfile.Proofs.Command.Lock
import JavaProfile.Proofs.Profile.Unlock
import JavaProfile.Proofs.Run.Loaded

/-!
Runs of a project: calls to its caches and commands on its locks, edits and a clock that moves. What
is cached after any of them was cached before, or was detected by the last visit, or was saved by it
with other locks.
-/

namespace JavaProfile

/-- Profiles with the same values of all fields that locks are for. -/
def Profile.SameValues (p q : Profile) : Prop :=
  ∀ f : Field, f.Lockable → f.member.get q = f.member.get p

namespace Profile.SameValues

variable {p q r : Profile}

theorem trans (h : p.SameValues q) (h' : q.SameValues r) : p.SameValues r :=
  fun f hf => (h' f hf).trans (h f hf)

theorem stamped (p : Profile) (t : Timestamp) : p.SameValues (p.stamped t) :=
  fun _ hf => get_stamped hf.ne_detectedAt t p

theorem setLocks (locked : Bool) (targets : List LockTarget) (p : Profile) :
    p.SameValues (targets.foldl (fun p t => t.setLocked locked p) p) := by
  induction targets generalizing p with
  | nil => exact fun _ _ => rfl
  | cons target targets ih =>
    have hfirst : p.SameValues (target.setLocked locked p) :=
      fun f hf => LockTarget.get_setLocked hf locked p target
    exact hfirst.trans (ih _)

end Profile.SameValues

/-- What a project is visited for. -/
inductive Deed where
  /-- Its profile is loaded or detected. -/
  | call (user : Cache) (refresh : Bool)
  /-- The words of a command line. -/
  | command (words : List String)

structure Visit (τ : Type) where
  before : Session τ
  deed : Deed

namespace Visit

open Work

variable {τ : Type} [FileTree τ] (c : Cache) (v : Visit τ)

def after : Session τ :=
  match v.deed with
  | .call user refresh => (runs (user.loadOrDetect refresh) v.before).2
  | .command words => ((Command.run words).run v.before).2

theorem after_call {s : Session τ} {user : Cache} {refresh : Bool} :
    after ⟨s, .call user refresh⟩ = (runs (user.loadOrDetect refresh) s).2 :=
  rfl

theorem after_command {s : Session τ} {words : List String} :
    after ⟨s, .command words⟩ = ((Command.run words).run s).2 :=
  rfl

/-- The visit is one to the project of a cache: a call to any cache of it, or a command that locks
or unlocks. -/
def On : Prop :=
  match v.deed with
  | .call user _ => user.project.directory = c.project.directory
  | .command words =>
    ∃ i locked, Command.read words = .ok (.run i) ∧ i.name.changesLocks = some locked ∧
      ∀ path names, i.words.arguments = path :: names →
        FileTree.realPath v.before.tree path = .ok c.project.directory

/-- The visit returns a profile. -/
def Returns (p : Profile) : Prop :=
  ∃ user refresh, v.deed = .call user refresh ∧
    (runs (user.loadOrDetect refresh) v.before).1 = .ok p

def isCommand : Bool :=
  match v.deed with
  | .call _ _ => false
  | .command _ => true

/-- The visit makes a call to a cache, one from the settings if it is a command. -/
def Opens (user : Cache) (refresh : Bool) : Prop :=
  match v.deed with
  | .call caller again => caller = user ∧ again = refresh
  | .command _ =>
    Cache.ofSettings v.before.settings c.project.directory none none none = .ok user ∧
      refresh = false

/-- The values of a profile are those that the visit has detected, or kept for their locks. -/
def Detects (q : Profile) : Prop :=
  ∃ user refresh x, v.Opens c user refresh ∧ user.Misses refresh v.before ∧
    user.Renews v.before x ∧ x.SameValues q

/-- The values of a profile are those of a valid one that the visit has saved with other locks. -/
def Relocks (q : Profile) : Prop :=
  v.isCommand = true ∧ ∃ user p, v.Opens c user false ∧
    (user.isValid v.before.tree v.before.now).result = .ok true ∧
    (c.load v.before.tree v.before.now).result = .ok (some p) ∧ p.SameValues q

variable {c v} in
theorem Detects.trans {p q : Profile} (h : v.Detects c p) (hvalues : p.SameValues q) :
    v.Detects c q := by
  obtain ⟨user, refresh, x, hopens, hmisses, hx, hsame⟩ := h
  exact ⟨user, refresh, x, hopens, hmisses, hx, hsame.trans hvalues⟩

variable {c v} in
theorem Opens.directory {user : Cache} {refresh : Bool} (hopens : v.Opens c user refresh)
    (hon : v.On c) : user.project.directory = c.project.directory := by
  obtain ⟨before, deed⟩ := v
  cases deed with
  | call caller again =>
    obtain ⟨rfl, -⟩ := hopens
    exact hon
  | command words => exact Command.directory_of_settings hopens.1

end Visit

namespace Cache

open Visit Work

variable {τ : Type} [FileTree τ]

/-- Any number of visits, the last one first, with edits between them that leave the cached profile
alone. All trees are as `M` says, also halfway through a command, and the clock moves as `T`
says. -/
inductive Visits (c : Cache) (M : τ → Prop) (T : Timestamp → Timestamp → Prop) (s : Session τ) :
    List (Visit τ) → Session τ → Prop where
  | start (hmoment : M s.tree) : Visits c M T s [] s
  | visit {visits : List (Visit τ)} {s' : Session τ} (deed : Deed)
      (hvisits : Visits c M T s visits s') (hon : Visit.On c ⟨s', deed⟩)
      (hhalf : ∀ user : Cache, user.project.directory = c.project.directory →
        M (runs (user.loadOrDetect false) s').2.tree)
      (hmoment : M (Visit.after ⟨s', deed⟩).tree) :
      Visits c M T s (⟨s', deed⟩ :: visits) (Visit.after ⟨s', deed⟩)
  | edit {visits : List (Visit τ)} {s' : Session τ} (t : τ) (hvisits : Visits c M T s visits s')
      (hprofile : FileTree.read t c.profilePath.text = FileTree.read s'.tree c.profilePath.text)
      (hmoment : M t) : Visits c M T s visits { s' with tree := t }
  | clock {visits : List (Visit τ)} {s' : Session τ} (x : Float)
      (hvisits : Visits c M T s visits s')
      (hclock : T s'.now (Session.now { s' with clock := x })) :
      Visits c M T s visits { s' with clock := x }

variable {c user : Cache} {M : τ → Prop} {T : Timestamp → Timestamp → Prop} {s s' : Session τ}
  {visits : List (Visit τ)} {t t' : τ} {now later : Timestamp} {p q : Profile}

theorem Visits.moment (hvisits : Visits c M T s visits s') : M s'.tree := by
  induction hvisits with
  | start hmoment => exact hmoment
  | visit _ _ _ _ hmoment => exact hmoment
  | edit _ _ _ hmoment => exact hmoment
  | clock _ _ _ ih => exact ih

theorem Visits.mono {M' : τ → Prop} (hvisits : Visits c M T s visits s') (h : ∀ t, M t → M' t) :
    Visits c M' T s visits s' := by
  induction hvisits with
  | start hmoment => exact .start (h _ hmoment)
  | visit deed _ hon hhalf hmoment ih =>
    exact ih.visit deed hon (fun user hdirectory => h _ (hhalf user hdirectory)) (h _ hmoment)
  | edit t _ hprofile hmoment ih => exact ih.edit t hprofile (h t hmoment)
  | clock x _ hclock ih => exact ih.clock x hclock

theorem Inert.congr (h : user.project.directory = c.project.directory) (hinert : c.Inert t) :
    user.Inert t := by
  have hdirectory : user.directory = c.directory := by
    rw [directory, h, directory]
  have hchecksum : user.checksumPath = c.checksumPath := by
    rw [checksumPath, hdirectory, checksumPath]
  constructor
  · rw [hdirectory, profilePath_congr h]
    exact hinert.profile
  · rw [hdirectory, hchecksum]
    exact hinert.checksum

variable [LawfulTree τ]

theorem load_of_reads (hread : FileTree.read t' c.profilePath.text = FileTree.read t c.profilePath.text)
    (h : (c.load t' now).result = .ok (some q)) : (c.load t now).result = .ok (some q) := by
  obtain ⟨text, htext, hparse⟩ := load_ok h
  rw [load_of_read (hread ▸ htext), hparse]

variable [OverwritingTree τ] {v : Visit τ}

theorem call_loads {refresh : Bool} (hdirectory : user.project.directory = c.project.directory)
    (hinert : c.Inert s.tree)
    (h : (c.load (runs (user.loadOrDetect refresh) s).2.tree later).result = .ok (some q)) :
    (c.load s.tree later).result = .ok (some q) ∨
      user.Misses refresh s ∧ ∃ x, user.Renews s x ∧ q = x.stamped s.now := by
  rw [← load_congr hdirectory] at h ⊢
  exact loadOrDetect_loads (hinert.congr hdirectory) h

/-- What can be loaded after a change of locks was cached before, or was made new, or is a valid
profile with the other locks. -/
theorem updateLocks_loads {locked : Bool} {names : List String} {targets : List LockTarget}
    (hinert : c.Inert s.tree)
    (hhalf : ∀ user : Cache, user.project.directory = c.project.directory →
      c.Inert (runs (user.loadOrDetect false) s).2.tree)
    (h : (c.load (runs (Command.updateLocks locked c.project.directory names targets) s).2.tree
      later).result = .ok (some q)) :
    (c.load s.tree later).result = .ok (some q) ∨
      ∃ (user : Cache) (p : Profile),
        Cache.ofSettings s.settings c.project.directory none none none = .ok user ∧
        q.detectedAt = s.now ∧ p.SameValues q ∧
        (user.Misses false s ∧ user.Renews s p ∨
          (user.isValid s.tree s.now).result = .ok true ∧
            (c.load s.tree s.now).result = .ok (some p)) := by
  rcases Command.updateLocks_cases locked c.project.directory names targets s with hstate |
    ⟨user, hcache, hlocks⟩
  · rw [hstate] at h
    exact .inl h
  · have hdirectory := Command.directory_of_settings hcache
    have hcall (h : (c.load (runs (user.loadOrDetect false) s).2.tree later).result =
        .ok (some q)) :
        (c.load s.tree later).result = .ok (some q) ∨
          user.Misses false s ∧ ∃ x, user.Renews s x ∧ q = x.stamped s.now :=
      call_loads hdirectory hinert h
    -- A command calls first and saves then, so the call may have written before the save does.
    rcases hlocks with ⟨e, -, hstate⟩ | ⟨p, hp, hstate⟩
    · rw [hstate] at h
      rcases hcall h with hbefore | ⟨hmisses, x, hx, rfl⟩
      · exact .inl hbefore
      · exact .inr ⟨user, x, hcache, rfl, .stamped x _, .inl ⟨hmisses, hx⟩⟩
    · rw [hstate, ← load_congr hdirectory] at h
      have hstorable := LockTarget.storable_foldl locked targets (loadOrDetect_storable hp)
      rcases Save.load_after (a := ⟨(runs (user.loadOrDetect false) s).2, _⟩) hstorable
        ((hhalf user hdirectory).congr hdirectory) h with hbefore | rfl
      · rw [load_congr hdirectory] at hbefore
        rcases hcall hbefore with hbefore | ⟨hmisses, x, hx, rfl⟩
        · exact .inl hbefore
        · exact .inr ⟨user, x, hcache, rfl, .stamped x _, .inl ⟨hmisses, hx⟩⟩
      · have hvalues := (Profile.SameValues.setLocks locked targets p).trans
          (.stamped _ (runs (user.loadOrDetect false) s).2.now)
        have hnow := (user.loadOrDetect_moment false s).now
        rcases loadOrDetect_returns hp with ⟨-, hvalid, hload⟩ | ⟨hmisses, x, hx, rfl | rfl⟩
        · rw [load_congr hdirectory] at hload
          exact .inr ⟨user, p, hcache, hnow, hvalues, .inr ⟨hvalid, hload⟩⟩
        · exact .inr ⟨user, p, hcache, hnow, hvalues, .inl ⟨hmisses, hx⟩⟩
        · exact .inr ⟨user, x, hcache, hnow, (Profile.SameValues.stamped x _).trans hvalues,
            .inl ⟨hmisses, hx⟩⟩

/-- Where a cached profile comes from: it was cached before the last visit, or that has detected or
relocked it. -/
theorem visit_loads (hon : v.On c) (hinert : c.Inert v.before.tree)
    (hhalf : ∀ user : Cache, user.project.directory = c.project.directory →
      c.Inert (runs (user.loadOrDetect false) v.before).2.tree)
    (h : (c.load v.after.tree later).result = .ok (some q)) :
    (c.load v.before.tree later).result = .ok (some q) ∨
      q.detectedAt = v.before.now ∧ (v.Detects c q ∨ v.Relocks c q) := by
  obtain ⟨before, deed⟩ := v
  cases deed with
  | call user refresh =>
    rcases call_loads hon hinert h with hbefore | ⟨hmisses, x, hx, rfl⟩
    · exact .inl hbefore
    · exact .inr ⟨rfl, .inl ⟨user, refresh, x, ⟨rfl, rfl⟩, hmisses, hx, .stamped x _⟩⟩
  | command words =>
    obtain ⟨i, locked, hread, hname, hreal⟩ := hon
    rcases Command.run_locks hread hname hreal with hstate |
      ⟨path, names, targets, -, -, hstate⟩
    · rw [after_command, hstate] at h
      exact .inl h
    · rw [after_command, hstate] at h
      rcases updateLocks_loads hinert hhalf h with hbefore |
        ⟨user, p, hcache, htime, hvalues, ⟨hmisses, hx⟩ | ⟨hvalid, hload⟩⟩
      · exact .inl hbefore
      · exact .inr ⟨htime, .inl ⟨user, false, p, ⟨hcache, rfl⟩, hmisses, hx, hvalues⟩⟩
      · exact .inr ⟨htime, .inr ⟨rfl, user, p, ⟨hcache, rfl⟩, hvalid, hload, hvalues⟩⟩

end Cache

end JavaProfile
