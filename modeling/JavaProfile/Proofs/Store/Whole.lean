import JavaProfile.Proofs.Project.Contents
import JavaProfile.Proofs.Profile.Lock
import JavaProfile.Proofs.Store.Digest
import JavaProfile.Proofs.Store.Use

/-!
Saving where every write succeeds, and what can be loaded after that.
-/

namespace JavaProfile

/-- No lock is set. -/
structure Profile.Unlocked (p : Profile) : Prop where
  groups (g : LockGroup) : g.isLocked p = false
  fields : p.lockedFields = []

theorem Profile.Unlocked.keeps_eq {p : Profile} (h : p.Unlocked) :
    p.keeps = fun f => f == .lockedFields := by
  funext f
  have hgroups : p.groupProtects f = false := by
    simp [groupProtects, h.groups]
  rw [keeps, isFieldLocked, h.fields, hgroups, List.contains_nil, Bool.or_false, Bool.or_false]

theorem Profile.carryLockedFrom_unlocked {p previous : Profile} (h : previous.Unlocked)
    (hp : p.lockedFields = []) : p.carryLockedFrom previous = p := by
  have hfields : Field.order.filter (fun f => f == .lockedFields) = [.lockedFields] := by decide
  rw [carryLockedFrom, h.keeps_eq, hfields, List.foldl_cons, List.foldl_nil]
  change { p with lockedFields := previous.lockedFields } = p
  rw [h.fields, ← hp]

theorem Project.detected_unlocked {τ : Type} [FileTree τ] {p : Project} {t : τ} {now : Timestamp}
    {q : Profile} (h : p.detected t now = .ok q) : q.Unlocked := by
  obtain ⟨manifests, mainContents, testContents, -, -, rfl⟩ := Project.detected_ok h
  exact ⟨fun g => by cases g <;> rfl, rfl⟩

namespace Cache

open Work

variable {τ : Type} [FileTree τ] (c : Cache)

/-! ### The trees on the way -/

def stored (t : τ) (now : Float) (document : String) : τ :=
  (FileTree.write (FileTree.makeDirectories t c.directory.text).1 now c.profilePath.text document).1

/-- The tree once a document and a checksum were written to the cache. -/
def sealed (t : τ) (now : Float) (document checksum : String) : τ :=
  (FileTree.write (c.stored t now document) now c.checksumPath.text checksum).1

/-- All that is saved is written. -/
structure Writable (t : τ) : Prop where
  directory : (FileTree.makeDirectories t c.directory.text).2 = .ok ()
  profile (now : Float) (document : String) :
    (FileTree.write (FileTree.makeDirectories t c.directory.text).1 now c.profilePath.text
      document).2 = .ok ()
  checksum (now : Float) (document checksum : String) :
    (FileTree.write (c.stored t now document) now c.checksumPath.text checksum).2 = .ok ()

/-- Saving leaves the main sources as they are. -/
structure Aside (t : τ) : Prop where
  checksum (now : Float) (document : String) :
    c.project.checksum (c.stored t now document) = c.project.checksum t
  contents (now : Float) (document checksum : String) :
    c.project.contents (c.sealed t now document checksum) .main = c.project.contents t .main

/-- The profile was saved with a checksum. Where both are one file, it is the checksum. -/
structure Saved (p : Profile) (k : String) (t : τ) : Prop where
  digest : ∃ message, k = Sha256.digest message
  storable : p.Storable
  checksum : FileTree.read t c.checksumPath.text = .ok k
  profile : FileTree.read t c.profilePath.text = .ok p.document ∨
    FileTree.read t c.profilePath.text = .ok k

variable {c} {p : Profile} {s : Session τ} {t t' : τ} {checksum : String}

/-- What there is of a cache is the same in another tree. -/
structure SameCache (c : Cache) (t t' : τ) : Prop where
  present : FileTree.contains t' c.profilePath.text = FileTree.contains t c.profilePath.text
  profile : FileTree.read t' c.profilePath.text = FileTree.read t c.profilePath.text
  checksum : FileTree.read t' c.checksumPath.text = FileTree.read t c.checksumPath.text

theorem SameCache.load (h : c.SameCache t t') (now : Timestamp) : c.load t' now = c.load t now := by
  rw [Cache.load, isPresent, h.present, h.profile, Cache.load, isPresent]

theorem SameCache.saved (h : c.SameCache t t') (hsaved : c.Saved p checksum t) :
    c.Saved p checksum t' :=
  ⟨hsaved.digest, hsaved.storable, h.checksum.trans hsaved.checksum,
    hsaved.profile.imp h.profile.trans h.profile.trans⟩

theorem load_of_absent (h : c.isPresent t = .ok false) (now : Timestamp) :
    (c.load t now).result = .ok none := by
  rw [load, h]
  rfl

/-! ### Saving -/

theorem digest_of_checksum {project : Project} (h : project.checksum t = .ok checksum) :
    ∃ message, checksum = Sha256.digest message := by
  rw [Project.checksum_eq] at h
  cases hentries : project.mainEntries t with
  | error e =>
    rw [hentries] at h
    cases h
  | ok entries =>
    rw [hentries] at h
    change ((project.listing entries).mapError Failure.number).map _ = _ at h
    cases hlisting : project.listing entries with
    | error e =>
      rw [hlisting] at h
      cases h
    | ok text =>
      rw [hlisting] at h
      cases h
      exact ⟨_, rfl⟩

theorem Writable.makeDirectory_runs (hwritable : c.Writable s.tree) :
    runs c.makeDirectory s =
      (.ok (), { s with tree := (FileTree.makeDirectories s.tree c.directory.text).1 }) := by
  rw [makeDirectory, runs_bind, runs_change]
  dsimp only
  rw [hwritable.directory]
  rfl

theorem Writable.writeProfile_runs (hwritable : c.Writable s.tree) (p : Profile) :
    runs (c.writeProfile p)
        { s with tree := (FileTree.makeDirectories s.tree c.directory.text).1 } =
      (.ok (), { s with tree := c.stored s.tree s.clock p.document }) := by
  rw [writeProfile, runs_bind, runs_change]
  dsimp only
  rw [hwritable.profile]
  rfl

theorem Writable.save_runs (hwritable : c.Writable s.tree)
    (hchecksum : c.project.checksum (c.stored s.tree s.clock (p.stamped s.now).document) =
      .ok checksum) :
    runs (c.save p) s = (.ok (p.stamped s.now),
      { s with tree := c.sealed s.tree s.clock (p.stamped s.now).document checksum }) := by
  have hseal : runs c.sealSources
      { s with tree := c.stored s.tree s.clock (p.stamped s.now).document } =
      (.ok (), { s with
        tree := c.sealed s.tree s.clock (p.stamped s.now).document checksum }) := by
    rw [sealSources, runs_bind, runs_get]
    dsimp only
    rw [hchecksum]
    dsimp only
    rw [writeChecksum, runs_bind, runs_change]
    dsimp only
    rw [hwritable.checksum]
    rfl
  have hnow : Session.now { s with
      tree := (FileTree.makeDirectories s.tree c.directory.text).1 } = s.now := rfl
  rw [Cache.save_runs, hwritable.makeDirectory_runs]
  dsimp only
  rw [hnow, hwritable.writeProfile_runs]
  dsimp only
  rw [hseal]

theorem Writable.saveIfPossible_runs (hwritable : c.Writable s.tree)
    (hchecksum : c.project.checksum (c.stored s.tree s.clock (p.stamped s.now).document) =
      .ok checksum) :
    ∃ s', runs (c.saveIfPossible p) s = (.ok (p.stamped s.now), s') ∧
      s'.tree = c.sealed s.tree s.clock (p.stamped s.now).document checksum ∧
      s'.clock = s.clock := by
  have hsave := hwritable.save_runs hchecksum
  obtain ⟨s', hquiet, hruns⟩ := c.saveIfPossible_runs s p
  rw [hsave] at hquiet hruns
  exact ⟨s', hruns, hquiet.tree, hquiet.clock⟩

/-- Where nothing is locked, a new detection returns what is detected, and saves that. -/
theorem Writable.detectAgain_runs {s₀ : Session τ} (hwritable : c.Writable s₀.tree)
    (hquiet : s₀.Quiet s) (hp : c.project.detected s₀.tree s₀.now = .ok p)
    {previous : Option Profile} (hprevious : previousOf (c.load s₀.tree s₀.now).result = .ok previous)
    (hunlocked : ∀ q, previous = some q → q.Unlocked)
    (hchecksum : c.project.checksum (c.stored s₀.tree s₀.clock p.document) = .ok checksum) :
    ∃ s', runs c.detectAgain s = (.ok p, s') ∧
      s'.tree = c.sealed s₀.tree s₀.clock p.document checksum ∧ s'.clock = s₀.clock := by
  have hscan : (c.project.scan s.tree s.announces).result.map
      (fun scan => scan.profile c.project.directory s.now) = .ok p := by
    rw [Project.scan_announces, hquiet.tree, hquiet.now]
    exact hp
  rw [← hquiet.tree, ← hquiet.now] at hprevious
  rcases c.detectAgain_cases s with ⟨e, s₁, -, -, herror | herror⟩ |
    ⟨previous', scan, s₁, hquiet', hprevious', hresult, hrun⟩
  · rw [hprevious] at herror
    cases herror
  · rw [herror] at hscan
    cases hscan
  · rw [hprevious] at hprevious'
    obtain rfl : previous = previous' := Except.ok.inj hprevious'
    rw [hresult] at hscan
    have hprofile : scan.profile c.project.directory s.now = p := Except.ok.inj hscan
    have hcarry : p.carryFrom? previous = p := by
      cases previous with
      | none => rfl
      | some q =>
        exact Profile.carryLockedFrom_unlocked (hunlocked q rfl) (Project.detected_unlocked hp).fields
    have hall : s₀.Quiet s₁ := hquiet.trans hquiet'
    have hstamped : p.stamped s₁.now = p := by
      rw [hall.now, ← Project.detectedAt_of_detected hp]
      rfl
    rw [← hall.tree] at hwritable
    rw [hprofile, hcarry] at hrun
    obtain ⟨s', hsave, htree, hclock⟩ := hwritable.saveIfPossible_runs (p := p) (s := s₁)
      (by rw [hstamped, hall.tree, hall.clock]; exact hchecksum)
    rw [hstamped, hall.tree, hall.clock] at htree
    rw [hstamped] at hsave
    exact ⟨s', hrun.trans hsave, htree, hclock.trans hall.clock⟩

theorem Writable.loadOrDetect_runs (hwritable : c.Writable s.tree)
    (hp : c.project.detected s.tree s.now = .ok p) (habsent : c.isPresent s.tree = .ok false)
    (hchecksum : c.project.checksum (c.stored s.tree s.clock p.document) = .ok checksum)
    (refresh : Bool) :
    ∃ s', runs (c.loadOrDetect refresh) s = (.ok p, s') ∧
      s'.tree = c.sealed s.tree s.clock p.document checksum ∧ s'.clock = s.clock := by
  have hload := load_of_absent habsent s.now
  have hinvalid : (c.isValid s.tree s.now).result = .ok false := by
    rw [isValid_result, hload]
  have hprevious : previousOf (c.load s.tree s.now).result = .ok none := by
    rw [hload]
    rfl
  rcases c.loadOrDetect_cases s refresh with ⟨e, s', -, -, -, herror | ⟨hvalid, -⟩⟩ |
    ⟨q, s', -, -, -, hvalid, -⟩ | ⟨s', hquiet, hrun, -⟩
  · rw [hinvalid] at herror
    cases herror
  · rw [hinvalid] at hvalid
    cases hvalid
  · rw [hinvalid] at hvalid
    cases hvalid
  · rw [hrun]
    exact hwritable.detectAgain_runs hquiet hp hprevious (fun q hq => by cases hq) hchecksum

theorem Writable.saved [LawfulTree τ] [OverwritingTree τ] (hwritable : c.Writable t)
    (hp : p.Storable) (hdigest : ∃ message, checksum = Sha256.digest message) (now : Float) :
    c.Saved p checksum (c.sealed t now p.document checksum) := by
  obtain ⟨message, rfl⟩ := hdigest
  have hstored : FileTree.read (c.stored t now p.document) c.profilePath.text = .ok p.document :=
    LawfulTree.read_write hp.notMem_document (Prod.ext rfl (hwritable.profile now p.document))
  refine ⟨⟨message, rfl⟩, hp, ?_, ?_⟩
  · exact LawfulTree.read_write (Sha256.notMem_digest message)
      (Prod.ext rfl (hwritable.checksum now p.document _))
  · exact OverwritingTree.read_write_or hstored (Sha256.notMem_digest message) now _

/-! ### Loading -/

namespace Saved

variable [LawfulTree τ] (h : c.Saved p checksum t)

include h

theorem load (now : Timestamp) :
    (c.load t now).result = .ok (some p) ∨
      ∃ fault, (c.load t now).result = .error (.cache fault) := by
  rcases h.profile with hprofile | hprofile
  · left
    rw [load_of_read hprofile, parse_document h.storable]
    rfl
  · obtain ⟨message, rfl⟩ := h.digest
    exact .inr (load_digest c hprofile now)

theorem previous (now : Timestamp) :
    previousOf (c.load t now).result = .ok (some p) ∨
      previousOf (c.load t now).result = .ok none := by
  rcases h.load now with hload | ⟨fault, hload⟩
  · exact .inl (by rw [hload]; rfl)
  · exact .inr (by rw [hload]; rfl)

omit [LawfulTree τ] in
theorem matchesSources {current : String} (hcurrent : c.project.checksum t = .ok current) :
    c.matchesSources t = .ok (decide (checksum = current)) := by
  obtain ⟨message, rfl⟩ := h.digest
  rw [Cache.matchesSources, h.checksum, hcurrent]
  change Except.ok (decide (String.ofList (Text.trim _) = current)) = _
  rw [Sha256.trim_digest]

/-- A cache is valid for no other reason than that its profile is fresh and fits the sources. -/
theorem isValid {current : String} (hcurrent : c.project.checksum t = .ok current)
    (now : Timestamp) :
    ∃ valid, (c.isValid t now).result = .ok valid ∧
      (valid = true → (c.load t now).result = .ok (some p) ∧ c.isStale p now = false ∧
        checksum = current) := by
  rw [isValid_result]
  rcases h.load now with hload | ⟨fault, hload⟩
  · rw [hload]
    dsimp only
    cases hstale : c.isStale p now with
    | true => exact ⟨false, rfl, nofun⟩
    | false =>
      rw [if_neg Bool.false_ne_true, h.matchesSources hcurrent]
      exact ⟨_, rfl, fun hvalid => ⟨rfl, rfl, of_decide_eq_true hvalid⟩⟩
  · rw [hload]
    exact ⟨false, rfl, nofun⟩

end Saved

theorem Saved.fresh [LawfulTree τ] {now : Timestamp} (h : c.Saved p checksum t)
    (hread : FileTree.read t c.profilePath.text = .ok p.document)
    (hcurrent : c.project.checksum t = .ok checksum) (hfresh : c.isStale p now = false) :
    (c.load t now).result = .ok (some p) ∧ (c.isValid t now).result = .ok true := by
  have hload : (c.load t now).result = .ok (some p) := by
    rw [load_of_read hread, parse_document h.storable]
    rfl
  refine ⟨hload, ?_⟩
  rw [isValid_result, hload]
  dsimp only
  rw [hfresh, if_neg Bool.false_ne_true, h.matchesSources hcurrent, decide_eq_true rfl]
  rfl

theorem matchesSources_true (h : c.matchesSources t = .ok true) :
    ∃ text k, FileTree.read t c.checksumPath.text = .ok text ∧ c.project.checksum t = .ok k ∧
      String.ofList (Text.trim text.toList) = k := by
  rw [matchesSources] at h
  cases htext : FileTree.read t c.checksumPath.text with
  | error e =>
    rw [htext] at h
    cases h
  | ok text =>
    cases hk : c.project.checksum t with
    | error e =>
      rw [htext, hk] at h
      cases h
    | ok k =>
      rw [htext, hk] at h
      exact ⟨text, k, rfl, rfl, of_decide_eq_true (Except.ok.inj h)⟩

/-- All that a valid cache goes by. -/
theorem isValid_true {now : Timestamp} (h : (c.isValid t now).result = .ok true) :
    ∃ p text k, (c.load t now).result = .ok (some p) ∧ c.isStale p now = false ∧
      FileTree.read t c.checksumPath.text = .ok text ∧ c.project.checksum t = .ok k ∧
      String.ofList (Text.trim text.toList) = k := by
  rw [isValid_result] at h
  -- All other ways through the check end in a miss or in an error.
  cases hload : (c.load t now).result with
  | error e =>
    rw [hload] at h
    cases e <;> cases h
  | ok loaded =>
    cases loaded with
    | none =>
      rw [hload] at h
      cases h
    | some p =>
      rw [hload] at h
      dsimp only at h
      cases hstale : c.isStale p now with
      | true =>
        rw [hstale, if_pos rfl] at h
        cases h
      | false =>
        rw [hstale, if_neg Bool.false_ne_true, missOnTreeError_result] at h
        cases hmatches : c.matchesSources t with
        | error e =>
          rw [hmatches] at h
          cases e
          case tree cause =>
            dsimp only at h
            split at h
            · cases h
            · cases h
          all_goals cases h
        | ok matched =>
          rw [hmatches] at h
          obtain rfl : matched = true := Except.ok.inj h
          obtain ⟨text, k, htext, hk, htrim⟩ := matchesSources_true hmatches
          exact ⟨p, text, k, rfl, hstale, htext, hk, htrim⟩

end Cache

end JavaProfile
