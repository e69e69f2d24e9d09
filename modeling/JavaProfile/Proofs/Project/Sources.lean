import JavaProfile.Project.Detect
import JavaProfile.Proofs.Architecture.Decision
import JavaProfile.Proofs.Profile.Document
import JavaProfile.Proofs.Tree.Answering
import JavaProfile.Proofs.Work.Run
import JavaProfile.Store.Checksum

/-!
The sources of a project: what a scan finds under a root, and when their checksum is missing.
Detection leaves the tree alone, and a detected profile can be stored.
-/

namespace JavaProfile

theorem Scan.storable_profile (s : Scan) (directory : Path) (now : Timestamp) :
    (s.profile directory now).Storable where
  version := rfl
  confidence_low := (Decision.isShare_confidence s).1
  confidence_high := (Decision.isShare_confidence s).2

namespace Project

open Work

variable {τ : Type} [FileTree τ]

theorem scan_result (p : Project) (t : τ) (announces : Bool) :
    (p.scan t announces).result =
      ((p.manifests t).mapError Failure.tree).bind fun manifests =>
        (p.scanSet t announces .main).result.bind fun mainFiles =>
          (p.scanSet t announces .test).result.bind fun testFiles =>
            .ok (Scan.ofFiles mainFiles testFiles p.roots manifests) := by
  rw [scan, Outcome.bind_result, Outcome.ofExcept_result]
  simp only [Outcome.bind_result]
  rfl

theorem detectWithScan_runs (p : Project) (s : Session τ) :
    ∃ s', s.Quiet s' ∧ runs p.detectWithScan s =
      ((p.scan s.tree s.announces).result.map fun scan => (scan.profile p.directory s.now, scan),
        s') := by
  obtain ⟨s₀, seconds, s₁, hquiet, hquiet', hruns⟩ :=
    timed_runs .debug "detect" [("project", p.directory.text)]
      (ofOutcome fun s : Session τ => p.scan s.tree s.announces) s
  rw [runs_ofOutcome] at hquiet' hruns
  have hall : s.Quiet s₁ := hquiet.trans ((Session.Quiet.say s₀ _).trans hquiet')
  refine ⟨s₁, hall, ?_⟩
  rw [detectWithScan, runs_bind, hruns, hquiet.tree, hquiet.announces]
  cases (p.scan s.tree s.announces).result with
  | error e => rfl
  | ok scan =>
    dsimp only [Except.map]
    rw [← hall.now]
    rfl

theorem detect_runs (p : Project) (s : Session τ) :
    ∃ s', s.Quiet s' ∧ runs p.detect s =
      ((p.scan s.tree s.announces).result.map fun scan => scan.profile p.directory s.now, s') := by
  obtain ⟨s', hquiet, hruns⟩ := p.detectWithScan_runs s
  refine ⟨s', hquiet, ?_⟩
  rw [detect, runs_bind, hruns]
  cases (p.scan s.tree s.announces).result <;> rfl

end Project

end JavaProfile

namespace JavaProfile

theorem mapM_ok {α β ε : Type} {f : α → Except ε β} {l : List α} (h : ∀ a ∈ l, ∃ b, f a = .ok b) :
    l.mapM f = .ok (l.filterMap fun a => (f a).toOption) := by
  induction l with
  | nil => rfl
  | cons a l ih =>
    obtain ⟨b, hb⟩ := h a List.mem_cons_self
    rw [List.mapM_cons, ih fun a' ha' => h a' (List.mem_cons_of_mem _ ha'), hb,
      List.filterMap_cons_some (by rw [hb]; rfl)]
    rfl

namespace Project

variable {τ : Type} [FileTree τ] {t : τ} {set : SourceSet}

/-! ### Scanning -/

/-- The source of an entry, unless it cannot be read. -/
def source? (t : τ) (set : SourceSet) (e : FileEntry) : Option SourceFile :=
  (FileTree.read t e.path.text).toOption.map fun text =>
    SourceFile.ofText text e.path.text (set = .test)

theorem readSource_result (t : τ) (set : SourceSet) (e : FileEntry) :
    (readSource t set e).result = .ok (source? t set e) := by
  rw [readSource, source?]
  cases FileTree.read t e.path.text <;> rfl

theorem readSources_result (t : τ) (set : SourceSet) (entries : List FileEntry) :
    (readSources t set entries).result = .ok (entries.filterMap (source? t set)) := by
  induction entries with
  | nil => rfl
  | cons e entries ih =>
    rw [readSources]
    simp only [Outcome.bind_result, readSource_result, ih]
    cases hsource : source? t set e with
    | none =>
      rw [List.filterMap_cons_none hsource]
      rfl
    | some f =>
      rw [List.filterMap_cons_some hsource]
      rfl

theorem scanSet_result (p : Project) (t : τ) (announces : Bool) (set : SourceSet) :
    (p.scanSet t announces set).result =
      (sourceEntries t (p.sourceRoot set)).map fun entries =>
        entries.filterMap (source? t set) := by
  rw [scanSet, Outcome.bind_result, Outcome.ofExcept_result]
  cases sourceEntries t (p.sourceRoot set) with
  | error e => rfl
  | ok entries =>
    change (if (announces && decide (quietSize < entries.length)) = true then
      announce set entries.length >>= fun _ => readSources t set entries
      else readSources t set entries).result = _
    split
    · rw [Outcome.bind_result, readSources_result]
      rfl
    · rw [readSources_result]
      rfl

theorem line_ok (directory : Path) {e : FileEntry} (h : e.modified.Whole) :
    ∃ line, e.line directory = .ok line := by
  obtain ⟨seconds, hseconds⟩ := h
  rw [FileEntry.line, hseconds]
  exact ⟨_, rfl⟩

theorem listing_ok (p : Project) {entries : List FileEntry}
    (h : ∀ e ∈ entries, e.modified.Whole) : ∃ text, p.listing entries = .ok text := by
  rw [listing, mapM_ok fun e he => line_ok p.directory (h e he)]
  exact ⟨_, rfl⟩

/-- The entries that the checksum covers. -/
def mainEntries (p : Project) (t : τ) : Except TreeError (List FileEntry) :=
  (FileTree.isDirectory t (p.sourceRoot .main).text).bind fun present =>
    if present then walkSources t (p.sourceRoot .main) else .ok []

theorem checksum_eq (p : Project) (t : τ) :
    p.checksum t = ((p.mainEntries t).mapError Failure.tree).bind fun entries =>
      ((p.listing entries).mapError Failure.number).map fun text =>
        Sha256.digest (Text.encode text) := by
  have hdigest (entries : List FileEntry) :
      ((p.listing entries).mapError Failure.number >>= fun text =>
        .ok (Sha256.digest (Text.encode text))) =
      ((p.listing entries).mapError Failure.number).map fun text =>
        Sha256.digest (Text.encode text) := by
    cases p.listing entries <;> rfl
  rw [checksum, mainEntries]
  cases FileTree.isDirectory t (p.sourceRoot .main).text with
  | error cause => rfl
  | ok present =>
    cases present with
    | false => exact hdigest []
    | true =>
      cases walkSources t (p.sourceRoot .main) with
      | error cause => rfl
      | ok entries => exact hdigest entries

theorem mainEntries_error [AnsweringTree τ] {p : Project} {e : TreeError}
    (h : p.mainEntries t = .error e) : e.isSystem = true := by
  rw [mainEntries] at h
  cases hdirectory : FileTree.isDirectory t (p.sourceRoot .main).text with
  | error cause =>
    rw [hdirectory] at h
    cases h
    exact AnsweringTree.isDirectory_error hdirectory
  | ok present =>
    rw [hdirectory] at h
    cases present with
    | false => cases h
    | true =>
      change (FileTree.walk t (p.sourceRoot .main).text).map _ = _ at h
      cases hwalk : FileTree.walk t (p.sourceRoot .main).text with
      | ok entries =>
        rw [hwalk] at h
        cases h
      | error cause =>
        rw [hwalk] at h
        cases h
        exact AnsweringTree.walk_error hdirectory hwalk

theorem whole_of_mainEntries [AnsweringTree τ] {p : Project} {entries : List FileEntry}
    (ht : AnsweringTree.Sound t) (h : p.mainEntries t = .ok entries) :
    ∀ e ∈ entries, e.modified.Whole := by
  rw [mainEntries] at h
  cases hdirectory : FileTree.isDirectory t (p.sourceRoot .main).text with
  | error cause =>
    rw [hdirectory] at h
    cases h
  | ok present =>
    rw [hdirectory] at h
    cases present with
    | false =>
      cases h
      intro e he
      cases he
    | true =>
      change (FileTree.walk t (p.sourceRoot .main).text).map _ = _ at h
      cases hwalk : FileTree.walk t (p.sourceRoot .main).text with
      | error cause =>
        rw [hwalk] at h
        cases h
      | ok found =>
        rw [hwalk] at h
        cases h
        intro e he
        exact AnsweringTree.modified_of_walk ht hwalk e (List.mem_filter.mp he).1

/-- Where there is no checksum of the sources, the system is the reason. -/
theorem checksum_error [AnsweringTree τ] {p : Project} {e : Failure} (ht : AnsweringTree.Sound t)
    (h : p.checksum t = .error e) : ∃ cause, e = .tree cause ∧ cause.isSystem = true := by
  rw [checksum_eq] at h
  cases hentries : p.mainEntries t with
  | ok entries =>
    have hwhole : ∀ e ∈ entries, e.modified.Whole := whole_of_mainEntries ht hentries
    obtain ⟨text, htext⟩ := p.listing_ok hwhole
    rw [hentries] at h
    change ((p.listing entries).mapError Failure.number).map _ = _ at h
    rw [htext] at h
    cases h
  | error cause =>
    rw [hentries] at h
    cases h
    exact ⟨cause, rfl, mainEntries_error hentries⟩

end Project

end JavaProfile
