import JavaProfile.Proofs.Project.Sources

/-!
What a detection depends on. But for the time and for what it says of tests, a profile depends on
the main sources and what they hold.
-/

namespace JavaProfile

/-- The same values but for the time of detection and for the tests. -/
def Profile.Alike (p q : Profile) : Prop :=
  { p with detectedAt := q.detectedAt, testing := q.testing } = q

theorem Profile.Alike.architecture {p q : Profile} (h : p.Alike q) :
    p.architecture = q.architecture := by
  unfold Alike at h
  rw [← h]

theorem Scan.profile_alike (mainFiles tests tests' : List SourceFile) (roots : SourceRoots)
    (manifests manifests' : Manifests) (directory : Path) (now now' : Timestamp) :
    ((ofFiles mainFiles tests roots manifests).profile directory now).Alike
      ((ofFiles mainFiles tests' roots manifests').profile directory now') :=
  rfl

theorem Scan.architecture_profile (s : Scan) (directory : Path) (now : Timestamp) :
    (s.profile directory now).architecture = (Decision.ofScan s : Decision Float).architecture :=
  rfl

theorem Scan.testing_profile (s : Scan) (directory : Path) (now : Timestamp) :
    (s.profile directory now).testing = s.testSetup :=
  rfl

namespace Project

open Work

variable {τ : Type} [FileTree τ]

/-- The source files of one kind with what they hold, if that can be read. -/
def contents (p : Project) (t : τ) (set : SourceSet) :
    Except Failure (List (Path × Option String)) :=
  (sourceEntries t (p.sourceRoot set)).map fun entries =>
    entries.map fun e => (e.path, (FileTree.read t e.path.text).toOption)

/-- The files that are scanned where sources hold some contents. -/
def filesOf (set : SourceSet) (contents : List (Path × Option String)) : List SourceFile :=
  contents.filterMap fun (path, text) =>
    text.map fun text => SourceFile.ofText text path.text (set = .test)

theorem scanSet_contents (p : Project) (t : τ) (announces : Bool) (set : SourceSet) :
    (p.scanSet t announces set).result = (p.contents t set).map (filesOf set) := by
  rw [scanSet_result, contents]
  cases sourceEntries t (p.sourceRoot set) with
  | error e => rfl
  | ok entries =>
    change Except.ok _ = Except.ok _
    rw [filesOf, List.filterMap_map]
    rfl

/-- Build files can be found out, and source roots can be walked. -/
structure Scannable (p : Project) (t : τ) : Prop where
  manifests : ∃ m, p.manifests t = .ok m
  contents (set : SourceSet) : ∃ contents, p.contents t set = .ok contents

/-- What is detected in a tree at a time. -/
def detected (p : Project) (t : τ) (now : Timestamp) : Except Failure Profile :=
  (p.scan t false).result.map fun scan => scan.profile p.directory now

theorem scan_contents (p : Project) (t : τ) (announces : Bool) :
    (p.scan t announces).result =
      ((p.manifests t).mapError Failure.tree).bind fun manifests =>
        (p.contents t .main).bind fun mainContents =>
          (p.contents t .test).bind fun testContents =>
            .ok (Scan.ofFiles (filesOf .main mainContents) (filesOf .test testContents) p.roots
              manifests) := by
  rw [scan_result, scanSet_contents, scanSet_contents]
  cases p.manifests t with
  | error e => rfl
  | ok manifests =>
    cases p.contents t .main with
    | error e => rfl
    | ok mainContents => cases p.contents t .test <;> rfl

theorem scan_announces (p : Project) (t : τ) (announces : Bool) :
    (p.scan t announces).result = (p.scan t false).result := by
  rw [scan_contents, scan_contents]

theorem detect_result (p : Project) (s : Session τ) :
    (runs p.detect s).1 = p.detected s.tree s.now := by
  obtain ⟨s', -, hruns⟩ := p.detect_runs s
  rw [hruns, scan_announces, detected]

variable {p : Project} {t t' : τ} {now now' : Timestamp} {q q' : Profile}

theorem Scannable.scanned (h : p.Scannable t) : ∃ scan, (p.scan t false).result = .ok scan := by
  obtain ⟨manifests, hmanifests⟩ := h.manifests
  obtain ⟨mainContents, hmain⟩ := h.contents .main
  obtain ⟨testContents, htest⟩ := h.contents .test
  rw [scan_contents, hmanifests, hmain, htest]
  exact ⟨_, rfl⟩

theorem Scannable.detected (h : p.Scannable t) (now : Timestamp) :
    ∃ q, p.detected t now = .ok q := by
  obtain ⟨scan, hscan⟩ := h.scanned
  rw [Project.detected, hscan]
  exact ⟨_, rfl⟩

theorem detected_ok (h : p.detected t now = .ok q) :
    ∃ manifests mainContents testContents, p.contents t .main = .ok mainContents ∧
      p.contents t .test = .ok testContents ∧
      q = (Scan.ofFiles (filesOf .main mainContents) (filesOf .test testContents) p.roots
        manifests).profile p.directory now := by
  rw [detected, scan_contents] at h
  cases hmanifests : p.manifests t with
  | error e =>
    rw [hmanifests] at h
    cases h
  | ok manifests =>
    cases hmain : p.contents t .main with
    | error e =>
      rw [hmanifests, hmain] at h
      cases h
    | ok mainContents =>
      cases htest : p.contents t .test with
      | error e =>
        rw [hmanifests, hmain, htest] at h
        cases h
      | ok testContents =>
        rw [hmanifests, hmain, htest] at h
        exact ⟨manifests, mainContents, testContents, rfl, rfl, (Except.ok.inj h).symm⟩

theorem detected_storable (h : p.detected t now = .ok q) : q.Storable := by
  obtain ⟨manifests, mainContents, testContents, -, -, rfl⟩ := detected_ok h
  exact Scan.storable_profile _ _ _

theorem detectedAt_of_detected (h : p.detected t now = .ok q) : q.detectedAt = now := by
  obtain ⟨manifests, mainContents, testContents, -, -, rfl⟩ := detected_ok h
  rfl

theorem alike_of_contents (h : p.detected t now = .ok q) (h' : p.detected t' now' = .ok q')
    (hmain : p.contents t' .main = p.contents t .main) : q.Alike q' := by
  obtain ⟨manifests, mainContents, testContents, hcontents, -, rfl⟩ := detected_ok h
  obtain ⟨manifests', mainContents', testContents', hcontents', -, rfl⟩ := detected_ok h'
  rw [hcontents', hcontents] at hmain
  obtain rfl : mainContents' = mainContents := Except.ok.inj hmain
  exact Scan.profile_alike ..

theorem testing_of_contents (h : p.detected t now = .ok q) (h' : p.detected t' now' = .ok q')
    (hsame : ∀ set, p.contents t' set = p.contents t set) : q.testing = q'.testing := by
  obtain ⟨manifests, mainContents, testContents, hmain, htest, rfl⟩ := detected_ok h
  obtain ⟨manifests', mainContents', testContents', hmain', htest', rfl⟩ := detected_ok h'
  have hmains := hsame .main
  have htests := hsame .test
  rw [hmain', hmain] at hmains
  rw [htest', htest] at htests
  obtain rfl : mainContents' = mainContents := Except.ok.inj hmains
  obtain rfl : testContents' = testContents := Except.ok.inj htests
  rfl

end Project

end JavaProfile
