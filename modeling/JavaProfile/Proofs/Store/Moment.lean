import JavaProfile.Proofs.Profile.Lock
import JavaProfile.Proofs.Project.Sources
import JavaProfile.Proofs.Store.Use

/-!
A call to a cache takes no time, and what it returns bears the time at which it was saved.
-/

namespace JavaProfile

/-- The clock and the settings stand as they did. -/
structure Session.SameMoment {τ : Type} (s s' : Session τ) : Prop where
  clock : s'.clock = s.clock
  settings : s'.settings = s.settings
  terminal : s'.terminal = s.terminal

namespace Session

variable {τ : Type} {s s' s'' : Session τ}

theorem SameMoment.refl (s : Session τ) : s.SameMoment s :=
  ⟨rfl, rfl, rfl⟩

theorem SameMoment.trans (h : s.SameMoment s') (h' : s'.SameMoment s'') : s.SameMoment s'' :=
  ⟨h'.clock.trans h.clock, h'.settings.trans h.settings, h'.terminal.trans h.terminal⟩

theorem SameMoment.now (h : s.SameMoment s') : s'.now = s.now := by
  rw [Session.now, h.clock, Session.now]

theorem Quiet.moment (h : s.Quiet s') : s.SameMoment s' :=
  ⟨h.clock, h.settings, h.terminal⟩

end Session

namespace Cache

open Work

variable {τ : Type} [FileTree τ] (c : Cache) (p : Profile) (refresh : Bool) (s : Session τ)

/-! ### Time -/

theorem makeDirectory_moment : s.SameMoment (runs c.makeDirectory s).2 := by
  rw [makeDirectory_state]
  exact ⟨rfl, rfl, rfl⟩

theorem writeProfile_moment : s.SameMoment (runs (c.writeProfile p) s).2 := by
  rw [writeProfile_state]
  exact ⟨rfl, rfl, rfl⟩

theorem writeChecksum_moment (checksum : String) :
    s.SameMoment (runs (c.writeChecksum checksum) s).2 := by
  rw [writeChecksum, runs_bind, runs_change]
  dsimp only
  split
  · exact ⟨rfl, rfl, rfl⟩
  · split <;> exact ⟨rfl, rfl, rfl⟩

theorem sealSources_moment : s.SameMoment (runs c.sealSources s).2 := by
  rw [sealSources, runs_bind, runs_get]
  dsimp only
  cases c.project.checksum s.tree with
  | ok checksum => exact c.writeChecksum_moment s checksum
  | error e =>
    cases e
    case tree cause =>
      dsimp only
      split <;> exact ⟨rfl, rfl, rfl⟩
    all_goals exact .refl s

theorem save_moment : s.SameMoment (runs (c.save p) s).2 := by
  have hdirectory := c.makeDirectory_moment s
  have hprofile := c.writeProfile_moment (p.stamped s.now) (runs c.makeDirectory s).2
  rcases c.save_cases p s with ⟨e, -, hsave⟩ | ⟨e, s₂, hwrite, hsave⟩ | ⟨s₂, -, hwrite, hsave⟩
  · rw [hsave]
    exact hdirectory
  · rw [hwrite] at hprofile
    rw [hsave]
    exact hdirectory.trans hprofile
  · rw [hwrite] at hprofile
    rw [hsave]
    exact (hdirectory.trans hprofile).trans (c.sealSources_moment s₂)

theorem saveIfPossible_moment : s.SameMoment (runs (c.saveIfPossible p) s).2 := by
  obtain ⟨s', hquiet, hrun⟩ := c.saveIfPossible_runs s p
  rw [hrun]
  exact (c.save_moment p s).trans hquiet.moment

theorem detectAgain_moment : s.SameMoment (runs c.detectAgain s).2 := by
  rcases c.detectAgain_cases s with ⟨e, s', hquiet, hrun, -⟩ | ⟨previous, scan, s', hquiet, -, -, hrun⟩
  · rw [hrun]
    exact hquiet.moment
  · rw [hrun]
    exact hquiet.moment.trans (c.saveIfPossible_moment _ s')

theorem loadOrDetect_moment : s.SameMoment (runs (c.loadOrDetect refresh) s).2 := by
  rcases c.loadOrDetect_cases s refresh with ⟨e, s', hquiet, hrun, -⟩ |
    ⟨p, s', hquiet, hrun, -⟩ | ⟨s', hquiet, hrun, -⟩
  · rw [hrun]
    exact hquiet.moment
  · rw [hrun]
    exact hquiet.moment
  · rw [hrun]
    exact hquiet.moment.trans (c.detectAgain_moment s')

/-! ### Results -/

variable {c p refresh s} {q : Profile} {s' : Session τ}

theorem isStale_at {now : Timestamp} (h : 0 ≤ c.lifetime.micros) (hp : p.detectedAt = now) :
    c.isStale p now = false := by
  have hage : p.age now = 0 := by
    rw [Profile.age, hp]
    exact Int.sub_self _
  rw [isStale, hage, decide_eq_false_iff_not]
  omega

theorem checksum_ne_cache {project : Project} {t : τ} {fault : CacheFault} :
    project.checksum t ≠ .error (.cache fault) := by
  rw [Project.checksum_eq]
  intro h
  cases hentries : project.mainEntries t with
  | error e =>
    rw [hentries] at h
    cases h
  | ok entries =>
    rw [hentries] at h
    change ((project.listing entries).mapError Failure.number).map _ = _ at h
    cases hlisting : project.listing entries <;>
    · rw [hlisting] at h
      cases h

theorem sealSources_ne_cache {fault : CacheFault} :
    (runs c.sealSources s).1 ≠ .error (.cache fault) := by
  rw [sealSources, runs_bind, runs_get]
  dsimp only
  intro h
  cases hchecksum : c.project.checksum s.tree with
  | ok k =>
    rw [hchecksum] at h
    dsimp only at h
    rw [writeChecksum, runs_bind, runs_change] at h
    dsimp only at h
    split at h
    · cases h
    · split at h <;> cases h
  | error e =>
    rw [hchecksum] at h
    cases e
    case tree cause =>
      dsimp only at h
      split at h <;> cases h
    case cache => exact absurd hchecksum checksum_ne_cache
    all_goals cases h

theorem saveIfPossible_stamped (hstores : c.Stores q s)
    (hrun : runs (c.saveIfPossible q) s = (.ok p, s')) : p = q.stamped s.now := by
  obtain ⟨s₁, -, hsave⟩ := c.saveIfPossible_runs s q
  rw [hrun] at hsave
  have hresult := congrArg Prod.fst hsave
  dsimp only at hresult
  rcases c.save_cases q s with ⟨e, herror, -⟩ | ⟨e, s₂, herror, -⟩ | ⟨s₂, -, -, hsaved⟩
  · rw [hstores.1] at herror
    cases herror
  · have hok := hstores.2
    rw [herror] at hok
    cases hok
  · rw [hsaved] at hresult
    dsimp only at hresult
    cases hseal : (runs c.sealSources s₂).1 with
    | ok u =>
      rw [hseal] at hresult
      exact Except.ok.inj hresult
    | error e =>
      rw [hseal] at hresult
      cases e
      case cache fault => exact absurd hseal sealSources_ne_cache
      all_goals cases hresult

/-- A profile whose document cannot be written is returned with the time of the attempt. -/
theorem saveIfPossible_unwritten {cause : TreeError}
    (hdirectory : (FileTree.makeDirectories s.tree c.directory.text).2 = .ok ())
    (hwrite : (FileTree.write (FileTree.makeDirectories s.tree c.directory.text).1 s.clock
      c.profilePath.text (q.stamped s.now).document).2 = .error cause)
    (hsystem : cause.isSystem = true) :
    ∃ s', runs (c.saveIfPossible q) s = (.ok (q.stamped s.now), s') ∧
      s'.tree = (FileTree.write (FileTree.makeDirectories s.tree c.directory.text).1 s.clock
        c.profilePath.text (q.stamped s.now).document).1 ∧ s.SameMoment s' := by
  have hopened : runs c.makeDirectory s =
      (.ok (), { s with tree := (FileTree.makeDirectories s.tree c.directory.text).1 }) := by
    rw [makeDirectory, runs_bind, runs_change]
    dsimp only
    rw [hdirectory]
    rfl
  have hfailed : (runs (c.save q) s).1 = .error (.cache (.write c.profilePath.text cause)) ∧
      (runs (c.save q) s).2.tree = (FileTree.write
        (FileTree.makeDirectories s.tree c.directory.text).1 s.clock c.profilePath.text
        (q.stamped s.now).document).1 := by
    rw [save_runs, hopened]
    dsimp only
    rw [writeProfile, runs_bind, runs_change]
    dsimp only
    rw [show Session.now { s with tree := (FileTree.makeDirectories s.tree c.directory.text).1 } =
      s.now from rfl, hwrite]
    dsimp only
    rw [if_pos hsystem]
    exact ⟨rfl, rfl⟩
  have hmoment := c.save_moment q s
  obtain ⟨s', hquiet, hrun⟩ := c.saveIfPossible_runs s q
  rw [hfailed.1, hmoment.now] at hrun
  exact ⟨s', hrun, hquiet.tree.trans hfailed.2, hmoment.trans hquiet.moment⟩

theorem load_of_previous {t : τ} {now : Timestamp}
    (h : previousOf (c.load t now).result = .ok (some p)) :
    (c.load t now).result = .ok (some p) := by
  cases hload : (c.load t now).result with
  | error e =>
    rw [hload] at h
    cases e <;> cases h
  | ok loaded =>
    rw [hload] at h
    obtain rfl : loaded = some p := Except.ok.inj h
    rfl

theorem storable_of_load {t : τ} {now : Timestamp} (h : (c.load t now).result = .ok (some p)) :
    p.Storable := by
  obtain ⟨text, -, hparse⟩ := load_ok h
  exact storable_of_parse hparse

theorem storable_carryFrom? {t : τ} {now : Timestamp} {previous : Option Profile}
    (hp : p.Storable) (h : previousOf (c.load t now).result = .ok previous) :
    (p.carryFrom? previous).Storable := by
  cases previous with
  | none => exact hp
  | some q => exact hp.carry (storable_of_load (load_of_previous h))

end Cache

end JavaProfile
