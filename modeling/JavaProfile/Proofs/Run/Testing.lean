import JavaProfile.Proofs.Run.Current

/-!
What cached profiles say of tests. Test files have no part in the checksum, so this is current only
while they are what they were when the profile was detected.
-/

namespace JavaProfile.Cache

open Work

variable {τ : Type} [FileTree τ] [LawfulTree τ] [OverwritingTree τ] {c : Cache} {M : τ → Prop}
  {calls later earlier : List (Call τ)} {b : Call τ} {s s' : Session τ}

/-- Every call of a run returns what it or an earlier call detected, and as long as the test files
are what they were then, a new detection would say the same of tests. -/
theorem Uses.testing (hM : c.Moments M) (haside : ∀ t, M t → c.Aside t)
    (hstart : c.isPresent s.tree = .ok false) (huses : Uses c M s calls s')
    (hcalls : calls = later ++ b :: earlier) :
    ∃ a ∈ b :: earlier, ∃ p d, a.Detects c p ∧ b.result c = .ok p ∧
      (runs c.project.detect (b.after c)).1 = .ok d ∧
      (c.project.contents (b.after c).tree .test = c.project.contents a.before.tree .test →
        p.testing = d.testing) := by
  obtain ⟨a, ha, p, hdetects, hresult, hmain⟩ := huses.current hM haside hstart hcalls
  obtain ⟨-, hmoment⟩ := huses.split hcalls
  obtain ⟨d, hd⟩ := (hM.scannable hmoment).detected (b.after c).now
  refine ⟨a, ha, p, d, hdetects, hresult, by rw [Project.detect_result, hd], fun htest => ?_⟩
  exact Project.testing_of_contents hdetects.detected hd fun
    | .main => hmain
    | .test => htest

/-! ### Runs with outdated tests -/

open MemoryTree

/-- What is detected of tests where a project has some source file and some test. -/
def plainTesting (source test : StoredFile) : TestSetup :=
  (Scan.ofFiles
    (Project.filesOf .main [(⟨.single, ["src", "main", "java", "A.java"]⟩, some source.data)])
    (Project.filesOf .test [(⟨.single, ["src", "test", "java", "ATest.java"]⟩, some test.data)])
    {} {}).testSetup

theorem testing_bare {source test : StoredFile} {now : Timestamp} {p : Profile}
    (h : atRoot.project.detected (bare source test) now = .ok p) :
    p.testing = plainTesting source test := by
  obtain ⟨manifests, mainContents, testContents, hmain, htest, rfl⟩ := Project.detected_ok h
  obtain ⟨hmain', htest', -⟩ := sources_bare source test
  obtain rfl := Except.ok.inj (hmain'.symm.trans hmain)
  obtain rfl := Except.ok.inj (htest'.symm.trans htest)
  rfl

theorem testing_cached {source test profile checksum : StoredFile} {now : Timestamp} {p : Profile}
    (h : atRoot.project.detected (cached source test profile checksum) now = .ok p) :
    p.testing = plainTesting source test := by
  obtain ⟨manifests, mainContents, testContents, hmain, htest, rfl⟩ := Project.detected_ok h
  obtain ⟨hmain', htest', -⟩ := sources_cached source test profile checksum
  obtain rfl := Except.ok.inj (hmain'.symm.trans hmain)
  obtain rfl := Except.ok.inj (htest'.symm.trans htest)
  rfl

/-- The second call of a run says of tests what a detection would. -/
theorem testing_plain :
    ∃ calls s', Uses atRoot (PlainMoment plainSource) plainSession calls s' ∧
      ∃ b ∈ calls, b ≠ ⟨plainSession, false⟩ ∧ ∃ p d, b.result atRoot = .ok p ∧
        (runs atRoot.project.detect (b.after atRoot)).1 = .ok d ∧ p.testing = d.testing := by
  obtain ⟨k, hk⟩ := hashed_plain
  obtain ⟨-, a, b, huses, -, -, -, profile, checksum, hbefore, hafter, -⟩ := uses_plain
  obtain ⟨-, hbare, -⟩ := sources_bare plainSource plainTest
  obtain ⟨-, hcached, -⟩ := sources_cached plainSource plainTest profile checksum
  have hcalls : [b, a, ⟨plainSession, false⟩] = [b] ++ a :: [⟨plainSession, false⟩] := rfl
  obtain ⟨a', ha', p, d, -, hresult, hd, htesting⟩ :=
    huses.testing (moments_plain hk) (fun _ h => aside_plain h) absent_plain hcalls
  refine ⟨_, _, huses, a, by simp, ?_, p, d, hresult, hd, htesting ?_⟩
  · rintro rfl
    have hfiles : 2 = 4 := congrArg (fun t : MemoryTree => t.files.length) hbefore
    cases hfiles
  · rw [hafter, hcached]
    rcases List.mem_pair.mp ha' with rfl | rfl
    · rw [hbefore, hcached]
    · rw [plainSession, hbare]

/-- The source file grows by a letter. -/
def grownSource : StoredFile := ⟨"package aa;\nclass A \x7b\x7d", .double 0.0⟩

/-- Then it is as long as it was, but in another package. -/
def movedSource : StoredFile := ⟨"package b;\nclass A \x7b\x7d", .double 0.0⟩

/-- A call of a run from a session on returns what is not current in what it says of tests. -/
def Misleads {τ : Type} [FileTree τ] (M : τ → Prop) (s : Session τ) : Prop :=
  atRoot.isPresent s.tree = .ok false ∧ ∃ calls s', Uses atRoot M s calls s' ∧ ∃ b ∈ calls, ∃ p d,
    b.result atRoot = .ok p ∧ (runs atRoot.project.detect (b.after atRoot)).1 = .ok d ∧
      p.testing ≠ d.testing

/-- The third call of the run misses that the test uses a library. -/
theorem misleads_mocking : Misleads (PlainMoment plainSource) plainSession := by
  obtain ⟨p, a, b, huses, hdetects, -, hresult, profile, checksum, -, -, htree⟩ := uses_plain
  obtain ⟨d, hd⟩ := (atRoot.project.scannable_of_memory (b.after atRoot).tree).detected
    (b.after atRoot).now
  refine ⟨absent_plain, _, _, huses, b, List.mem_cons_self, p, d, hresult,
    by rw [Project.detect_result, hd], ?_⟩
  have hne : plainTesting plainSource plainTest ≠ plainTesting plainSource mockingTest := by
    decide +kernel
  rw [htree] at hd
  rw [testing_bare hdetects.detected, testing_cached hd]
  exact hne

/-- The main source grows and shrinks, while its test stays. -/
inductive MovedMoment : MemoryTree → Prop where
  | bare : MovedMoment (bare plainSource plainTest)
  | cached {source : StoredFile} (hsource : source ∈ [plainSource, grownSource, movedSource])
    (profile checksum : StoredFile) : MovedMoment (cached source plainTest profile checksum)

/-- Where the listing of the main sources is restored, a call misses that tests do not mirror them
any more. -/
theorem misleads_moved : Misleads MovedMoment plainSession := by
  obtain ⟨k, hk⟩ := hashed_plain
  obtain ⟨p, hdetects, htree, hclock⟩ := call_bare (s := plainSession) hk rfl
  have hstorable := Project.detected_storable hdetects.detected
  have hmoved : plainChecksum movedSource = .ok k := by
    have hentry : plainChecksum movedSource = plainChecksum plainSource := rfl
    rw [hentry, hk]
  have hfresh : atRoot.isStale p (Call.after atRoot ⟨plainSession, false⟩).now = false := by
    rw [isStale, Profile.age, Project.detectedAt_of_detected hdetects.detected, Session.now, hclock]
    decide +kernel
  have hfirst : Uses atRoot MovedMoment plainSession [⟨plainSession, false⟩]
      (Call.after atRoot ⟨plainSession, false⟩) :=
    .call false (.start .bare) (htree ▸ .cached (by simp) ..)
  have hgrow := sameCache_cached plainSource plainTest ⟨p.document, .double plainSession.clock⟩
    ⟨k, .double plainSession.clock⟩ grownSource plainTest
  rw [← htree] at hgrow
  have hgrown := hfirst.edit _ hgrow (.cached (by simp) ..)
  have hmove := sameCache_cached grownSource plainTest ⟨p.document, .double plainSession.clock⟩
    ⟨k, .double plainSession.clock⟩ movedSource plainTest
  obtain ⟨b, -, huses, hresult, hafter, -⟩ :=
    uses_cached hmoved (hgrown.edit _ hmove (.cached (by simp) ..)) hstorable rfl hfresh
  obtain ⟨d, hd⟩ := (atRoot.project.scannable_of_memory (b.after atRoot).tree).detected
    (b.after atRoot).now
  refine ⟨absent_plain, _, _, huses, b, List.mem_cons_self, p, d, hresult,
    by rw [Project.detect_result, hd], ?_⟩
  have hne : plainTesting plainSource plainTest ≠ plainTesting movedSource plainTest := by
    decide +kernel
  rw [hafter] at hd
  rw [testing_bare hdetects.detected, testing_cached hd]
  exact hne

/-- Where the main source is the cached profile, a call returns that tests mirror sources, which
holds before it only. -/
theorem misleads_aliased : Misleads AliasedMoment aliasedSession := by
  obtain ⟨hresult, -, d, hd, -, hmirror⟩ := call_aliased
  refine ⟨absent_aliased, _, _, uses_aliased, _, List.mem_cons_self, aliasedProfile, d, hresult, hd,
    fun heq => ?_⟩
  have hmirrors := signs_aliasedProfile.2
  rw [heq, hmirror] at hmirrors
  cases hmirrors

theorem moments_moved {t : MemoryTree} (h : MovedMoment t) :
    atRoot.Writable t ∧ atRoot.Aside t ∧ atRoot.project.contents t .test =
      .ok [(⟨.single, ["src", "test", "java", "ATest.java"]⟩, some plainTest.data)] := by
  cases h with
  | bare => exact ⟨writable_bare .., aside_bare .., (sources_bare plainSource plainTest).2.1⟩
  | cached =>
    exact ⟨writable_cached .., aside_cached .., (sources_cached _ plainTest _ _).2.1⟩

theorem tests_aliased {t : DiskTree} (h : AliasedMoment t) :
    atRoot.project.contents t .test = .ok DiskTree.aliasedTests := by
  cases h with
  | before => exact (DiskTree.others_aliased [] []).1
  | after k => exact (DiskTree.others_aliased _ k).2.1

/-- What a call returns can mislead about tests, though all is saved and every edit changes a size:
where a test file changes, where the main sources change to others with the same listing, and where
saving a profile changes the main sources. -/
theorem misleads_by_each :
    (atRoot.Moments (PlainMoment plainSource) ∧ (∀ t, PlainMoment plainSource t → atRoot.Aside t) ∧
        Misleads (PlainMoment plainSource) plainSession) ∧
      ((∀ t, MovedMoment t → atRoot.Writable t ∧ atRoot.Aside t ∧
          atRoot.project.contents t .test =
            .ok [(⟨.single, ["src", "test", "java", "ATest.java"]⟩, some plainTest.data)]) ∧
        Misleads MovedMoment plainSession) ∧
      (atRoot.Moments AliasedMoment ∧
        (∀ t, AliasedMoment t → atRoot.project.contents t .test = .ok DiskTree.aliasedTests) ∧
        Misleads AliasedMoment aliasedSession) := by
  obtain ⟨k, hk⟩ := hashed_plain
  refine ⟨⟨moments_plain hk, fun _ h => aside_plain h, misleads_mocking⟩,
    ⟨fun _ h => moments_moved h, misleads_moved⟩,
    ⟨moments_aliased, fun _ h => tests_aliased h, misleads_aliased⟩⟩

end JavaProfile.Cache
