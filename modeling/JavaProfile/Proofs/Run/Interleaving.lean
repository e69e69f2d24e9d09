import JavaProfile.Proofs.Run.Coherent
import JavaProfile.Proofs.Run.Turn

/-!
Runs in which callers take turns while the project is edited. Profile and checksum come from two
looks at the sources, by one caller or by two. A valid cache is up to date if the sources held the
same both times; if not, it may be valid all the same, until the next edit.
-/

namespace JavaProfile

theorem Profile.carryFrom?_unlocked {p : Profile} {previous : Option Profile}
    (hp : p.lockedFields = []) (h : ∀ q, previous = some q → q.Unlocked) :
    p.carryFrom? previous = p := by
  cases previous with
  | none => rfl
  | some q => exact carryLockedFrom_unlocked (h q rfl) hp

theorem Project.detect_quiet {τ : Type} [FileTree τ] (p : Project) (s : Session τ) :
    ∃ s', s.Quiet s' ∧ Work.runs p.detect s = (p.detected s.tree s.now, s') := by
  obtain ⟨s', hquiet, hruns⟩ := p.detect_runs s
  exact ⟨s', hquiet, by rw [hruns, scan_announces, detected]⟩

namespace Cache

open Work

variable {τ : Type} [FileTree τ]

/-- The profile was detected in the tree. It may bear another time. -/
def Finds (c : Cache) (t : τ) (p : Profile) : Prop :=
  ∃ now later q, c.project.detected t now = .ok q ∧ p = q.stamped later

variable {c : Cache} {M : τ → Prop} {t t' : τ} {p : Profile} {s : Session τ}

namespace Finds

theorem of_detected {now : Timestamp} (h : c.project.detected t now = .ok p) : c.Finds t p :=
  ⟨now, p.detectedAt, p, h, rfl⟩

theorem stamped (h : c.Finds t p) (later : Timestamp) : c.Finds t (p.stamped later) := by
  obtain ⟨now, before, q, hq, rfl⟩ := h
  exact ⟨now, later, q, hq, rfl⟩

theorem storable (h : c.Finds t p) : p.Storable := by
  obtain ⟨now, later, q, hq, rfl⟩ := h
  exact (Project.detected_storable hq).stamped later

theorem unlocked (h : c.Finds t p) : p.Unlocked := by
  obtain ⟨now, later, q, hq, rfl⟩ := h
  obtain ⟨hgroups, hfields⟩ := Project.detected_unlocked hq
  exact ⟨hgroups, hfields⟩

theorem alike_detected {now : Timestamp} {d : Profile} (h : c.Finds t p)
    (hd : c.project.detected t' now = .ok d)
    (hsame : c.project.contents t' .main = c.project.contents t .main) : p.Alike d := by
  obtain ⟨before, later, q, hq, rfl⟩ := h
  have halike : q.Alike d := Project.alike_of_contents hq hd hsame
  exact halike

end Finds

/-! ### Writing the profile -/

variable {stamped : Profile} {s' : Session τ}

theorem writeStamped_ok (h : runs (c.writeStamped p) s = (.ok stamped, s')) :
    stamped = p.stamped s.now ∧ (Save.mk s p).stores c = true ∧
      s'.tree = (Save.mk s p).written c := by
  have hsave := c.save_eq_writeStamped p s
  rw [h] at hsave
  have hdirectory := c.makeDirectory_state s
  rw [writeStamped, runs_bind] at h
  rcases hmake : runs c.makeDirectory s with ⟨e | ⟨⟩, s₁⟩
  · rw [hmake] at h
    cases h
  · rw [hmake] at h hdirectory
    dsimp only at h hdirectory
    have hnow : s₁.now = s.now := by rw [hdirectory, Session.now, Session.now]
    rw [runs_bind, runs_get] at h
    dsimp only at h
    rw [runs_bind, hnow] at h
    have hprofile := c.writeProfile_state (p.stamped s.now) s₁
    rcases hwrite : runs (c.writeProfile (p.stamped s.now)) s₁ with ⟨e | ⟨⟩, s₂⟩
    · rw [hwrite] at h
      cases h
    · rw [hwrite] at h hprofile
      cases h
      refine ⟨rfl, Save.stores_iff.mpr ⟨by rw [hmake], by rw [hmake, hwrite]⟩, ?_⟩
      dsimp only at hprofile
      rw [hprofile, hdirectory]
      rfl

theorem writeStamped_error {e : Failure} (h : (runs (c.writeStamped p) s).1 = .error e) :
    (Save.mk s p).stores c = false := by
  refine Bool.eq_false_iff.mpr fun htrue => ?_
  obtain ⟨hmake, hwrite⟩ := Save.stores_iff.mp htrue
  have hnow := c.makeDirectory_now s
  rw [writeStamped, runs_bind] at h
  rcases hdirectory : runs c.makeDirectory s with ⟨e | ⟨⟩, s₁⟩
  · rw [hdirectory] at hmake
    cases hmake
  · rw [hdirectory] at h hwrite hnow
    dsimp only at h hwrite hnow
    rw [runs_bind, runs_get] at h
    dsimp only at h
    rw [runs_bind, hnow] at h
    rcases hprofile : runs (c.writeProfile (p.stamped s.now)) s₁ with ⟨e | ⟨⟩, s₂⟩
    · rw [hprofile] at hwrite
      cases hwrite
    · rw [hprofile] at h
      cases h

section Writing

variable [OverwritingTree τ]

theorem saveIfPossible_covers {e : Failure} (hinert : c.Inert s.tree)
    (h : (runs (c.writeStamped p) s).1 = .error e) :
    c.Covers s.tree (runs (c.saveIfPossible p) s).2.tree := by
  obtain ⟨s', hquiet, hruns⟩ := c.saveIfPossible_runs s p
  rw [hruns]
  dsimp only
  rw [hquiet.tree]
  exact Save.covers_of_unstored (a := ⟨s, p⟩) hinert (writeStamped_error h)

end Writing

/-! ### What callers go by -/

/-- What a caller keeps protects nothing, or was found out in a tree of the run. -/
def Stage.Sound (c : Cache) (M : τ → Prop) : Stage τ → Prop
  | .looked previous => ∀ q, previous = some q → q.Unlocked
  | .scanned p seen => M seen ∧ c.Finds seen p
  | .hashed _ k seen => M seen ∧ c.project.checksum seen = .ok k
  | _ => True

namespace Shared

/-- The notes are right, and the files of the cache hold what is noted. Where both are one file, it
is no use as the other. -/
structure Sound (c : Cache) (M : τ → Prop) (m : Shared τ) : Prop where
  stage (i : ℕ) : (m.stage i).Sound c M
  profile {p : Profile} {seen : τ} (h : m.profile? = some (p, seen)) : M seen ∧ c.Finds seen p
  checksum {k : String} {seen : τ} (h : m.checksum? = some (k, seen)) :
    M seen ∧ c.project.checksum seen = .ok k
  document {data : String} (h : FileTree.read m.session.tree c.profilePath.text = .ok data) :
    (∃ p seen, m.profile? = some (p, seen) ∧ data = p.document) ∨
      ∃ message, data = Sha256.digest message
  digest {data : String} (h : FileTree.read m.session.tree c.checksumPath.text = .ok data) :
    (∃ seen, m.checksum? = some (data, seen)) ∨
      ∀ message, String.ofList (Text.trim data.toList) ≠ Sha256.digest message

/-- The main sources held the same where the profile was detected that was written last and where
the checksum was computed that was written last. -/
def Steady (c : Cache) (m : Shared τ) : Prop :=
  ∀ p seen k seen', m.profile? = some (p, seen) → m.checksum? = some (k, seen') →
    c.project.contents seen' .main = c.project.contents seen .main

variable {m : Shared τ} {i : ℕ} {stage : Stage τ}

namespace Sound

theorem start (hprofile : ∀ data, FileTree.read s.tree c.profilePath.text ≠ .ok data)
    (hchecksum : ∀ data, FileTree.read s.tree c.checksumPath.text ≠ .ok data) :
    (start s).Sound c M where
  stage _ := trivial
  profile h := by cases h
  checksum h := by cases h
  document h := absurd h (hprofile _)
  digest h := absurd h (hchecksum _)

theorem session (h : m.Sound c M) (hcovers : c.Covers m.session.tree s.tree) :
    Sound c M { m with session := s } where
  stage := h.stage
  profile := h.profile
  checksum := h.checksum
  document hread := h.document (hcovers.profile hread)
  digest hread := h.digest (hcovers.checksum hread)

theorem stages (h : m.Sound c M) (hstage : stage.Sound c M) :
    ∀ j, (Function.update m.stage i stage j).Sound c M := by
  intro j
  by_cases heq : j = i
  · rw [heq, Function.update_self]
    exact hstage
  · rw [Function.update_of_ne heq]
    exact h.stage j

theorem enter (h : m.Sound c M) (hcovers : c.Covers m.session.tree s.tree)
    (hstage : stage.Sound c M) : (m.enter i stage s).Sound c M where
  stage := h.stages hstage
  profile := h.profile
  checksum := h.checksum
  document hread := h.document (hcovers.profile hread)
  digest hread := h.digest (hcovers.checksum hread)

theorem load (h : m.Sound c M) {now : Timestamp}
    (hload : (c.load m.session.tree now).result = .ok (some p)) :
    ∃ seen, m.profile? = some (p, seen) := by
  obtain ⟨data, hread, hparse⟩ := load_ok hload
  rcases h.document hread with ⟨q, seen, hprofile, rfl⟩ | ⟨message, rfl⟩
  · rw [parse_document (h.profile hprofile).2.storable] at hparse
    cases hparse
    exact ⟨seen, hprofile⟩
  · obtain ⟨fault, hfault⟩ := c.parse_digest message now
    rw [hfault] at hparse
    cases hparse

theorem previous (h : m.Sound c M) {now : Timestamp} {previous : Option Profile}
    (hprevious : previousOf (c.load m.session.tree now).result = .ok previous) :
    ∀ q, previous = some q → q.Unlocked := by
  rintro q rfl
  obtain ⟨seen, hprofile⟩ := h.load (load_of_previous hprevious)
  exact (h.profile hprofile).2.unlocked

variable [OverwritingTree τ]

/-- A caller has written its profile. -/
theorem stored {seen : τ} (h : m.Sound c M) (hinert : c.Inert m.session.tree)
    (hstage : m.stage i = .scanned p seen)
    (hwrite : runs (c.writeStamped p) m.session = (.ok stamped, s)) :
    Sound c M { m.enter i (.stored stamped) s with profile? := some (stamped, seen) } := by
  obtain ⟨rfl, hstores, htree⟩ := writeStamped_ok hwrite
  obtain ⟨hmoment, hfinds⟩ : M seen ∧ c.Finds seen p := by
    have hsound := h.stage i
    rw [hstage] at hsound
    exact hsound
  have hfound := hfinds.stamped m.session.now
  constructor
  case stage => exact h.stages trivial
  case profile =>
    intro q seen' hnoted
    cases hnoted
    exact ⟨hmoment, hfound⟩
  case checksum => exact h.checksum
  case document =>
    intro data hread
    change FileTree.read s.tree _ = _ at hread
    rw [htree] at hread
    exact .inl ⟨_, seen, rfl, (Save.read_written hstores hread).eq hfound.storable.notMem_document⟩
  case digest =>
    intro data hread
    change FileTree.read s.tree _ = _ at hread
    rw [htree] at hread
    rcases OverwritingTree.read_of_write hread with hbefore | hdocument
    · exact h.digest (hinert.checksum hbefore)
    · exact .inr fun message => Profile.digest_ne_document _ hdocument message

/-- A caller has tried to write its checksum. -/
theorem sealed {k : String} {seen : τ} (h : m.Sound c M) (hstage : m.stage i = .hashed p k seen)
    (result : Except Failure Profile) :
    Sound c M { m.enter i (.ended result) (runs (c.writeChecksum k) m.session).2 with
      checksum? :=
        if (FileTree.write m.session.tree m.session.clock c.checksumPath.text k).2.isOk then
          some (k, seen)
        else m.checksum? } := by
  obtain ⟨hmoment, hk⟩ : M seen ∧ c.project.checksum seen = .ok k := by
    have hsound := h.stage i
    rw [hstage] at hsound
    exact hsound
  obtain ⟨message, rfl⟩ := digest_of_checksum hk
  have hbreaks := Sha256.notMem_digest message
  have htree := c.writeChecksum_tree m.session (Sha256.digest message)
  cases hwrite : (FileTree.write m.session.tree m.session.clock c.checksumPath.text
      (Sha256.digest message)).2 with
  | error e =>
    have hcovers : c.Covers m.session.tree
        (runs (c.writeChecksum (Sha256.digest message)) m.session).2.tree := by
      rw [htree]
      exact ⟨OverwritingTree.read_of_failed hwrite, OverwritingTree.read_of_failed hwrite⟩
    exact h.enter hcovers trivial
  | ok u =>
    constructor
    case stage => exact h.stages trivial
    case profile => exact h.profile
    case checksum =>
      intro k' seen' hnoted
      cases hnoted
      exact ⟨hmoment, hk⟩
    case document =>
      intro data hread
      change FileTree.read (runs _ _).2.tree _ = _ at hread
      rw [htree] at hread
      rcases OverwritingTree.read_of_write hread with hbefore | hover
      · exact h.document hbefore
      · exact .inr ⟨message, hover.eq hbreaks⟩
    case digest =>
      intro data hread
      change FileTree.read (runs _ _).2.tree _ = _ at hread
      rw [htree] at hread
      obtain rfl := (OverwritingTree.read_of_written hwrite hread).eq hbreaks
      exact .inl ⟨seen, rfl⟩

/-- No step of a caller makes the notes wrong. -/
theorem advance (h : m.Sound c M) (hmoment : M m.session.tree) (hinert : c.Inert m.session.tree)
    (i : ℕ) : (m.advance c i).Sound c M := by
  -- By the stage of the caller. Two stages write to the cache, in the others the caller only looks.
  unfold Shared.advance
  cases hstage : m.stage i with
  | idle => exact h
  | begun refresh =>
    obtain ⟨used, s, hquiet, hused⟩ : ∃ used s, m.session.Quiet s ∧
        runs (if refresh then pure none else c.reuse?) m.session = (used, s) := by
      cases refresh with
      | true => exact ⟨_, _, .refl _, rfl⟩
      | false =>
        obtain ⟨s, hquiet, hruns⟩ := c.reuse_runs m.session
        exact ⟨_, s, hquiet, hruns⟩
    dsimp only
    rw [hused]
    rcases used with e | _ | p <;> exact h.enter (.of_eq hquiet.tree) trivial
  | missed =>
    obtain ⟨s, hquiet, hruns⟩ := c.previous_runs m.session
    dsimp only
    rw [hruns]
    cases hprevious : previousOf (c.load m.session.tree m.session.now).result with
    | error e => exact h.enter (.of_eq hquiet.tree) trivial
    | ok previous => exact h.enter (.of_eq hquiet.tree) (h.previous hprevious)
  | looked previous =>
    have hunlocked : ∀ q, previous = some q → q.Unlocked := by
      have hsound := h.stage i
      rw [hstage] at hsound
      exact hsound
    obtain ⟨s, hquiet, hruns⟩ := c.project.detect_quiet m.session
    dsimp only
    rw [hruns]
    cases hfresh : c.project.detected m.session.tree m.session.now with
    | error e => exact h.enter (.of_eq hquiet.tree) trivial
    | ok fresh =>
      dsimp only
      rw [Profile.carryFrom?_unlocked (Project.detected_unlocked hfresh).fields hunlocked]
      exact h.enter (.of_eq hquiet.tree) ⟨hmoment, .of_detected hfresh⟩
  | scanned p seen =>
    dsimp only
    rcases hwrite : runs (c.writeStamped p) m.session with ⟨e | stamped, s⟩
    · exact h.enter (saveIfPossible_covers hinert (by rw [hwrite])) trivial
    · exact h.stored hinert hstage hwrite
  | stored p =>
    dsimp only
    cases hk : c.project.checksum m.session.tree with
    | error e => exact h.enter (.of_eq (sealSources_of_error hk)) trivial
    | ok k => exact h.enter (.of_eq rfl) ⟨hmoment, hk⟩
  | hashed p k seen => exact h.sealed hstage _
  | ended result => exact h

end Sound

end Shared

/-! ### Runs -/

/-- What holds of the trees of a run: they can be scanned, making the directory of the cache makes
no file appear in it, and the main sources hold the same wherever their checksum is the same. -/
structure Legible (c : Cache) (M : τ → Prop) : Prop where
  scannable {t : τ} (h : M t) : c.project.Scannable t
  inert {t : τ} (h : M t) : c.Inert t
  distinct {t t' : τ} {k : String} (h : M t) (h' : M t') (hk : c.project.checksum t = .ok k)
    (hk' : c.project.checksum t' = .ok k) :
    c.project.contents t' .main = c.project.contents t .main

/-- What may come of a session while callers take turns. A caller that has begun need not go on, and
may begin anew. -/
inductive Interleaves (c : Cache) (M : τ → Prop) (s : Session τ) : Shared τ → Prop where
  | start (hmoment : M s.tree) : Interleaves c M s (.start s)
  | call {m : Shared τ} (i : ℕ) (refresh : Bool) (hrun : Interleaves c M s m) :
      Interleaves c M s (m.enter i (.begun refresh) m.session)
  | advance {m : Shared τ} (i : ℕ) (hrun : Interleaves c M s m)
      (hmoment : M (m.advance c i).session.tree) : Interleaves c M s (m.advance c i)
  /-- Any other tree with the same cache. -/
  | edit {m : Shared τ} (t : τ) (hrun : Interleaves c M s m)
      (hcache : c.SameCache m.session.tree t) (hmoment : M t) :
      Interleaves c M s { m with session := { m.session with tree := t } }
  | clock {m : Shared τ} (x : Float) (hrun : Interleaves c M s m) :
      Interleaves c M s { m with session := { m.session with clock := x } }

variable {m : Shared τ}

theorem Interleaves.moment (hrun : Interleaves c M s m) : M m.session.tree := by
  induction hrun with
  | start hmoment => exact hmoment
  | call _ _ _ ih => exact ih
  | advance _ _ hmoment => exact hmoment
  | edit _ _ _ hmoment => exact hmoment
  | clock _ _ ih => exact ih

/-- What a valid cache holds can be traced: its profile to the tree in which it was detected, and
its checksum to one in which the main sources held what they hold now. -/
theorem Shared.Sound.of_isValid (h : m.Sound c M)
    (hvalid : (c.isValid m.session.tree m.session.now).result = .ok true) :
    ∃ p seen k seen', (c.load m.session.tree m.session.now).result = .ok (some p) ∧
      m.profile? = some (p, seen) ∧ m.checksum? = some (k, seen') ∧
      c.project.checksum m.session.tree = .ok k := by
  obtain ⟨p, text, k, hload, -, htext, hk, htrim⟩ := isValid_true hvalid
  obtain ⟨seen, hprofile⟩ := h.load hload
  obtain ⟨message, hdigest⟩ := digest_of_checksum hk
  rcases h.digest htext with ⟨seen', hchecksum⟩ | hother
  · obtain ⟨message', rfl⟩ := digest_of_checksum (h.checksum hchecksum).2
    rw [Sha256.trim_digest] at htrim
    rw [htrim] at hchecksum
    exact ⟨p, seen, k, seen', hload, hprofile, hchecksum, hk⟩
  · exact absurd (htrim.trans hdigest) (hother message)

variable [OverwritingTree τ]

theorem Interleaves.sound (hM : c.Legible M)
    (hprofile : ∀ data, FileTree.read s.tree c.profilePath.text ≠ .ok data)
    (hchecksum : ∀ data, FileTree.read s.tree c.checksumPath.text ≠ .ok data)
    (hrun : Interleaves c M s m) : m.Sound c M := by
  induction hrun with
  | start => exact .start hprofile hchecksum
  | call i refresh _ ih => exact ih.enter (.of_eq rfl) trivial
  | advance i hrun _ ih => exact ih.advance hrun.moment (hM.inert hrun.moment) i
  | edit t _ hcache _ ih => exact ih.session hcache.covers
  | clock x _ ih => exact ih.session (.of_eq rfl)

/-! ### Two callers and an edit

One caller detects a profile, the source file is edited, and another one detects anew. The first one
goes on to save what it has: its profile is of the old source, its checksum of the new one. Then the
second one writes its profile.
-/

/-- No caller but one has gone on. -/
def Shared.Turn (m : Shared τ) (i : ℕ) (m' : Shared τ) : Prop :=
  ∀ j, j ≠ i → m'.stage j = m.stage j

section Steps

omit [OverwritingTree τ]

theorem Interleaves.scans (hrun : Interleaves c M s m)
    (habsent : c.isPresent m.session.tree = .ok false)
    (hp : c.project.detected m.session.tree m.session.now = .ok p) (i : ℕ) :
    ∃ m', Interleaves c M s m' ∧ m'.stage i = .scanned p m.session.tree ∧ m.Turn i m' ∧
      m.session.Quiet m'.session := by
  have hload := load_of_absent habsent m.session.now
  have hinvalid : (c.isValid m.session.tree m.session.now).result = .ok false := by
    rw [isValid_result, hload]
  obtain ⟨s₁, hquiet₁, hreuse⟩ := c.reuse_runs m.session
  rw [hinvalid] at hreuse
  obtain ⟨s₂, hquiet₂, hprevious⟩ := c.previous_runs s₁
  rw [hquiet₁.tree, hquiet₁.now, hload] at hprevious
  obtain ⟨s₃, hquiet₃, hdetect⟩ := c.project.detect_quiet s₂
  have hquiet := hquiet₁.trans hquiet₂
  rw [hquiet.tree, hquiet.now, hp] at hdetect
  have hmissed := Shared.advance_begun (m := m.enter i (.begun false) m.session)
    (Shared.stage_enter ..) hreuse
  have hlooked := Shared.advance_missed (m := m.enter i .missed s₁) (Shared.stage_enter ..)
    hprevious
  have hscanned := Shared.advance_looked (m := m.enter i (.looked none) s₂)
    (Shared.stage_enter ..) hdetect
  rw [Shared.enter_enter] at hmissed hlooked hscanned
  have hseen : (m.enter i (.looked none) s₂).session.tree = m.session.tree := hquiet.tree
  rw [hseen] at hscanned
  have hmoment := hrun.moment
  have hrun₁ := (hrun.call i false).advance i (c := c)
    (by rw [hmissed]; exact hquiet₁.tree ▸ hmoment)
  rw [hmissed] at hrun₁
  have hrun₂ := hrun₁.advance i (by rw [hlooked]; exact hquiet.tree ▸ hmoment)
  rw [hlooked] at hrun₂
  have hrun₃ := hrun₂.advance i
    (by rw [hscanned]; exact (hquiet.trans hquiet₃).tree ▸ hmoment)
  rw [hscanned] at hrun₃
  exact ⟨_, hrun₃, Function.update_self .., fun _ hne => Function.update_of_ne hne ..,
    hquiet.trans hquiet₃⟩

theorem Writable.writeStamped_runs (hwritable : c.Writable s.tree) :
    runs (c.writeStamped p) s = (.ok (p.stamped s.now),
      { s with tree := c.stored s.tree s.clock (p.stamped s.now).document }) := by
  have hnow : Session.now { s with
      tree := (FileTree.makeDirectories s.tree c.directory.text).1 } = s.now := rfl
  rw [writeStamped, runs_bind, hwritable.makeDirectory_runs]
  dsimp only
  rw [runs_bind, runs_get]
  dsimp only
  rw [hnow, runs_bind, hwritable.writeProfile_runs]
  rfl

variable {i : ℕ} {seen : τ}

theorem Interleaves.stores (hrun : Interleaves c M s m) (hstage : m.stage i = .scanned p seen)
    (hwritable : c.Writable m.session.tree)
    (hmoment : M (c.stored m.session.tree m.session.clock (p.stamped m.session.now).document)) :
    ∃ m', Interleaves c M s m' ∧ m'.stage i = .stored (p.stamped m.session.now) ∧ m.Turn i m' ∧
      m'.session.tree =
        c.stored m.session.tree m.session.clock (p.stamped m.session.now).document ∧
      m'.session.clock = m.session.clock ∧
      m'.profile? = some (p.stamped m.session.now, seen) ∧ m'.checksum? = m.checksum? := by
  have hstored := Shared.advance_scanned hstage hwritable.writeStamped_runs
  have hrun₁ := hrun.advance i (by rw [hstored]; exact hmoment)
  rw [hstored] at hrun₁
  exact ⟨_, hrun₁, Function.update_self .., fun _ hne => Function.update_of_ne hne .., rfl, rfl,
    rfl, rfl⟩

theorem Interleaves.seals {k : String} (hrun : Interleaves c M s m) (hstage : m.stage i = .stored p)
    (hk : c.project.checksum m.session.tree = .ok k)
    (hwrite : FileTree.write m.session.tree m.session.clock c.checksumPath.text k = (t, .ok ()))
    (hmoment : M t) :
    ∃ m', Interleaves c M s m' ∧ m.Turn i m' ∧ m'.session.tree = t ∧
      m'.session.clock = m.session.clock ∧ m'.profile? = m.profile? ∧
      m'.checksum? = some (k, m.session.tree) := by
  have hhashed := Shared.advance_stored hstage hk
  have hruns : runs (c.writeChecksum k) m.session = (.ok (), { m.session with tree := t }) := by
    rw [writeChecksum, runs_bind, runs_change]
    dsimp only
    rw [hwrite]
    rfl
  have hsealed := Shared.advance_hashed (c := c)
    (m := m.enter i (.hashed p k m.session.tree) m.session) (Shared.stage_enter ..)
    (congrArg Prod.snd hwrite) hruns
  rw [Shared.enter_enter] at hsealed
  have hrun₁ := hrun.advance i (by rw [hhashed]; exact hrun.moment)
  rw [hhashed] at hrun₁
  have hrun₂ := hrun₁.advance i (by rw [hsealed]; exact hmoment)
  rw [hsealed] at hrun₂
  exact ⟨_, hrun₂, fun _ hne => Function.update_of_ne hne .., rfl, rfl, rfl, rfl⟩

end Steps

section Swagger

open MemoryTree

theorem sameCache_bare (source test source' test' : StoredFile) :
    atRoot.SameCache (bare source test) (bare source' test') := by
  obtain ⟨-, hprofile, hchecksum⟩ := key_cache
  refine ⟨?_, ?_, ?_⟩
  · rw [atRoot_profilePath]
    change Except.ok (hasFile _ (key _) || hasDirectory _ (key _)) =
      Except.ok (hasFile _ (key _) || hasDirectory _ (key _))
    rw [hprofile]
    rfl
  · rw [atRoot_profilePath]
    change (bare source' test').read _ = (bare source test).read _
    rw [read_eq, read_eq, hprofile]
    rfl
  · rw [atRoot_checksumPath]
    change (bare source' test').read _ = (bare source test).read _
    rw [read_eq, read_eq, hchecksum]
    rfl

theorem contents_described (source test profile : StoredFile) :
    atRoot.project.contents (described source test profile) .main =
      .ok [(⟨.single, ["src", "main", "java", "A.java"]⟩, some source.data)] := by
  cbv

/-- The one source file is plain, or it uses a library. -/
def SwaggerMoment (t : MemoryTree) : Prop :=
  ∃ source, (source = plainSource ∨ source = swaggerSource) ∧
    atRoot.project.contents t .main =
      .ok [(⟨.single, ["src", "main", "java", "A.java"]⟩, some source.data)] ∧
    atRoot.project.checksum t = plainChecksum source

theorem plainChecksum_swagger_ne : plainChecksum swaggerSource ≠ plainChecksum plainSource := by
  decide +kernel

theorem legible_swagger : atRoot.Legible SwaggerMoment where
  scannable {t} _ := atRoot.project.scannable_of_memory t
  inert {t} _ := inert_memory atRoot t
  distinct {t t' k} h h' hk hk' := by
    obtain ⟨source, hsource, hcontents, hchecksum⟩ := h
    obtain ⟨source', hsource', hcontents', hchecksum'⟩ := h'
    have hsame : plainChecksum source' = plainChecksum source := by
      rw [← hchecksum, ← hchecksum', hk, hk']
    have heq : source' = source := by
      rcases hsource with rfl | rfl <;> rcases hsource' with rfl | rfl
      · rfl
      · exact absurd hsame plainChecksum_swagger_ne
      · exact absurd hsame.symm plainChecksum_swagger_ne
      · rfl
    rw [hcontents, hcontents', heq]

theorem moment_bare {source : StoredFile} (h : source = plainSource ∨ source = swaggerSource) :
    SwaggerMoment (bare source plainTest) :=
  ⟨source, h, (sources_bare source plainTest).1, checksum_bare source plainTest⟩

theorem moment_described (profile : StoredFile) :
    SwaggerMoment (described swaggerSource plainTest profile) :=
  ⟨swaggerSource, .inr rfl, contents_described _ _ _, checksum_described _ _ _⟩

theorem moment_cached (profile checksum : StoredFile) :
    SwaggerMoment (cached swaggerSource plainTest profile checksum) :=
  ⟨swaggerSource, .inr rfl, (sources_cached _ _ _ _).1, checksum_cached _ _ _ _⟩

theorem stamped_plainDetected (source : StoredFile) :
    (plainDetected source).stamped plainSession.now = plainDetected source := by
  have hself (p : Profile) : p.stamped p.detectedAt = p := rfl
  have hstamped := hself (plainDetected source)
  rw [detectedAt_plainDetected] at hstamped
  exact hstamped

theorem now_of_clock {s s' : Session MemoryTree} (h : s'.clock = s.clock) : s'.now = s.now := by
  rw [Session.now, h, Session.now]

/-- Two callers have scanned, one before the source file was edited and one after. -/
theorem interleaves_scanned :
    ∃ m, Interleaves atRoot SwaggerMoment plainSession m ∧
      m.session.tree = bare swaggerSource plainTest ∧ m.session.clock = plainSession.clock ∧
      m.stage 0 = .scanned (plainDetected plainSource) (bare plainSource plainTest) ∧
      m.stage 1 = .scanned (plainDetected swaggerSource) (bare swaggerSource plainTest) := by
  have habsent (source : StoredFile) : atRoot.isPresent (bare source plainTest) = .ok false :=
    (sources_bare source plainTest).2.2.2
  have hfinds (source : StoredFile) :
      atRoot.project.detected (bare source plainTest) plainSession.now =
        .ok (plainDetected source) :=
    detected_bare source plainTest plainSession.now
  obtain ⟨m₁, hrun₁, hstage₁, -, hquiet₁⟩ :=
    (Interleaves.start (c := atRoot) (s := plainSession) (moment_bare (.inl rfl))).scans
      (habsent plainSource) (hfinds plainSource) 0
  have hsame : atRoot.SameCache m₁.session.tree (bare swaggerSource plainTest) := by
    rw [hquiet₁.tree]
    exact sameCache_bare plainSource plainTest swaggerSource plainTest
  obtain ⟨m₂, hrun₂, htree₂, hclock₂, hstages₂⟩ : ∃ m₂,
      Interleaves atRoot SwaggerMoment plainSession m₂ ∧
      m₂.session.tree = bare swaggerSource plainTest ∧
      m₂.session.clock = plainSession.clock ∧ m₂.stage = m₁.stage :=
    ⟨_, hrun₁.edit (bare swaggerSource plainTest) hsame (moment_bare (.inr rfl)), rfl,
      hquiet₁.clock, rfl⟩
  obtain ⟨m₃, hrun₃, hstage₃, hturn₃, hquiet₃⟩ := hrun₂.scans (p := plainDetected swaggerSource)
    (by rw [htree₂]; exact habsent swaggerSource)
    (by rw [htree₂, now_of_clock hclock₂]; exact hfinds swaggerSource) 1
  refine ⟨m₃, hrun₃, hquiet₃.tree.trans htree₂, hquiet₃.clock.trans hclock₂, ?_, ?_⟩
  · rw [hturn₃ 0 (by decide), hstages₂]
    exact hstage₁
  · rw [hstage₃, htree₂]

/-- The project when one caller has written its checksum, and when another one has written its
profile as well. -/
theorem interleaves_swagger :
    ∃ m n k x between, plainChecksum swaggerSource = .ok k ∧
      Interleaves atRoot SwaggerMoment plainSession m ∧
      m.session.tree = cached swaggerSource plainTest
        ⟨(plainDetected plainSource).document, x⟩ ⟨k, x⟩ ∧
      m.session.now = plainSession.now ∧
      Interleaves atRoot SwaggerMoment plainSession n ∧
      n.session.tree = cached swaggerSource plainTest
        ⟨(plainDetected swaggerSource).document, x⟩ ⟨k, x⟩ ∧
      n.session.now = plainSession.now ∧
      n.profile? = some (plainDetected swaggerSource, bare swaggerSource plainTest) ∧
      n.checksum? = some (k, described swaggerSource plainTest between) := by
  obtain ⟨k, hk⟩ := hashed_swagger
  obtain ⟨m₁, hrun₁, htree₁, hclock₁, hfirst₁, hsecond₁⟩ := interleaves_scanned
  -- the first caller saves what it has detected of the plain source
  obtain ⟨m₂, hrun₂, hstage₂, hturn₂, htree₂, hclock₂, -, -⟩ := hrun₁.stores hfirst₁
    (by rw [htree₁]; exact writable_bare swaggerSource plainTest)
    (by rw [htree₁, stored_bare]; exact moment_described _)
  rw [htree₁, stored_bare, hclock₁, now_of_clock hclock₁, stamped_plainDetected] at htree₂
  rw [now_of_clock hclock₁, stamped_plainDetected] at hstage₂
  have hchecksum := (write_checksum swaggerSource plainTest ⟨(plainDetected plainSource).document,
    .double plainSession.clock⟩ ⟨"", .int 0⟩ plainSession.clock k).1
  obtain ⟨m₃, hrun₃, hturn₃, htree₃, hclock₃, -, hchecksum₃⟩ := hrun₂.seals hstage₂
    (by rw [htree₂, checksum_described, hk])
    (by rw [htree₂, hclock₂.trans hclock₁, atRoot_checksumPath]; exact hchecksum)
    (moment_cached _ _)
  have hclock : m₃.session.clock = plainSession.clock := hclock₃.trans (hclock₂.trans hclock₁)
  rw [htree₂] at hchecksum₃
  -- the second caller writes what it has detected of the other source
  have hsecond₃ : m₃.stage 1 =
      .scanned (plainDetected swaggerSource) (bare swaggerSource plainTest) := by
    rw [hturn₃ 1 (by decide), hturn₂ 1 (by decide), hsecond₁]
  obtain ⟨m₄, hrun₄, -, -, htree₄, hclock₄, hprofile₄, hchecksum₄⟩ := hrun₃.stores hsecond₃
    (by rw [htree₃]; exact writable_cached _ _ _ _)
    (by rw [htree₃, stored_cached]; exact moment_cached _ _)
  rw [htree₃, stored_cached, hclock, now_of_clock hclock, stamped_plainDetected] at htree₄
  rw [now_of_clock hclock, stamped_plainDetected] at hprofile₄
  exact ⟨m₃, m₄, k, _, _, hk, hrun₃, htree₃, now_of_clock hclock, hrun₄, htree₄,
    now_of_clock (hclock₄.trans hclock), hprofile₄, hchecksum₄.trans hchecksum₃⟩

end Swagger

/-- However callers take turns while the project is edited: a valid cache holds what would be
detected now, but for the time and the tests, if the main sources have not changed between the two
looks at them that it comes from. -/
theorem Interleaves.alike_of_steady (hM : c.Legible M)
    (hprofile : ∀ data, FileTree.read s.tree c.profilePath.text ≠ .ok data)
    (hchecksum : ∀ data, FileTree.read s.tree c.checksumPath.text ≠ .ok data)
    (hrun : Interleaves c M s m) (hsteady : m.Steady c)
    (hvalid : (c.isValid m.session.tree m.session.now).result = .ok true) :
    ∃ p d, (c.load m.session.tree m.session.now).result = .ok (some p) ∧
      (runs c.project.detect m.session).1 = .ok d ∧ p.Alike d := by
  have hsound := hrun.sound hM hprofile hchecksum
  obtain ⟨p, seen, k, seen', hload, hdescribed, hhashed, hk⟩ := hsound.of_isValid hvalid
  obtain ⟨d, hd⟩ := (hM.scannable hrun.moment).detected m.session.now
  obtain ⟨-, hfinds⟩ := hsound.profile hdescribed
  obtain ⟨hmoment, hk'⟩ := hsound.checksum hhashed
  have hnow : c.project.contents m.session.tree .main = c.project.contents seen' .main :=
    hM.distinct hmoment hrun.moment hk' hk
  refine ⟨p, d, hload, by rw [Project.detect_result, hd], hfinds.alike_detected hd ?_⟩
  exact hnow.trans (hsteady p seen k seen' hdescribed hhashed)

section Swagger

open MemoryTree

theorem unread_bare (source test : StoredFile) :
    (∀ data, FileTree.read (bare source test) atRoot.profilePath.text ≠ .ok data) ∧
      ∀ data, FileTree.read (bare source test) atRoot.checksumPath.text ≠ .ok data := by
  obtain ⟨-, hprofile, hchecksum⟩ := key_cache
  constructor
  · intro data hread
    rw [atRoot_profilePath] at hread
    change (bare source test).read _ = _ at hread
    rw [read_eq, hprofile] at hread
    cases hread
  · intro data hread
    rw [atRoot_checksumPath] at hread
    change (bare source test).read _ = _ at hread
    rw [read_eq, hchecksum] at hread
    cases hread

theorem isStale_plainDetected (source : StoredFile) :
    atRoot.isStale (plainDetected source) plainSession.now = false :=
  isStale_at (by decide) (detectedAt_plainDetected source)

/-- The profile of the second caller beside the checksum of the first one. -/
theorem alike_interleaved :
    ∃ m, atRoot.Legible SwaggerMoment ∧ Interleaves atRoot SwaggerMoment plainSession m ∧
      m.Steady atRoot ∧
      (atRoot.isValid m.session.tree m.session.now).result = .ok true ∧
      ∃ p d, (atRoot.load m.session.tree m.session.now).result = .ok (some p) ∧
        (runs atRoot.project.detect m.session).1 = .ok d ∧ p.Alike d := by
  obtain ⟨-, n, k, x, between, hk, -, -, -, hrun, htree, hnow, hprofile, hchecksum⟩ :=
    interleaves_swagger
  have hsteady : n.Steady atRoot := by
    intro p seen k' seen' hp hk'
    rw [hprofile] at hp
    rw [hchecksum] at hk'
    cases hp
    cases hk'
    rw [contents_described, (sources_bare swaggerSource plainTest).1]
  have hvalid : (atRoot.isValid n.session.tree n.session.now).result = .ok true := by
    rw [htree, hnow]
    exact isValid_cached hk (storable_plainDetected _) (isStale_plainDetected _)
  obtain ⟨hunread, hunread'⟩ := unread_bare plainSource plainTest
  exact ⟨n, legible_swagger, hrun, hsteady, hvalid,
    hrun.alike_of_steady legible_swagger hunread hunread' hsteady hvalid⟩

/-- The profile of the first caller beside its own checksum. It has been outdated since before it
was written. -/
theorem outdated_interleaved :
    ∃ m p d, atRoot.Legible SwaggerMoment ∧ atRoot.isPresent plainSession.tree = .ok false ∧
      Interleaves atRoot SwaggerMoment plainSession m ∧
      (atRoot.isValid m.session.tree m.session.now).result = .ok true ∧
      (atRoot.load m.session.tree m.session.now).result = .ok (some p) ∧
      (runs atRoot.project.detect m.session).1 = .ok d ∧ p.swaggerStyle ≠ d.swaggerStyle := by
  obtain ⟨m, -, k, x, -, hk, hrun, htree, hnow, -⟩ := interleaves_swagger
  have hstorable := storable_plainDetected plainSource
  refine ⟨m, plainDetected plainSource, plainDetected swaggerSource, legible_swagger, absent_plain,
    hrun, ?_, ?_, ?_, ?_⟩
  · rw [htree, hnow]
    exact isValid_cached hk hstorable (isStale_plainDetected _)
  · rw [htree]
    exact load_cached hstorable
  · rw [Project.detect_result, htree, hnow]
    exact detected_cached swaggerSource plainTest _ _ _
  · obtain ⟨-, hplain, hswagger⟩ := swagger_plainDetected
    rw [hplain, hswagger]
    decide

end Swagger

end Cache

end JavaProfile
