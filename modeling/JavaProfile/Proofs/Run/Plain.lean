import JavaProfile.Proofs.Command.Reply
import JavaProfile.Proofs.Run.Loaded

/-!
What calls and commands do to a project in memory with one source file, one test and a cache.
-/

namespace JavaProfile.Cache

open MemoryTree Work

variable {source test profile checksum : StoredFile} {k : String} {p : Profile} {now : Timestamp}
  {time time' : Number} {s : Session MemoryTree}

/-- What there is to scan in the project, with or without a cache. -/
def plainScan (source test : StoredFile) : Scan :=
  Scan.ofFiles
    (Project.filesOf .main [(⟨.single, ["src", "main", "java", "A.java"]⟩, some source.data)])
    (Project.filesOf .test [(⟨.single, ["src", "test", "java", "ATest.java"]⟩, some test.data)])
    {} {}

theorem detected_cached (source test profile checksum : StoredFile) (now : Timestamp) :
    atRoot.project.detected (cached source test profile checksum) now =
      .ok ((plainScan source test).profile atRoot.project.directory now) := by
  obtain ⟨hmain, htest, -⟩ := sources_cached source test profile checksum
  have hmanifests : atRoot.project.manifests (cached source test profile checksum) = .ok {} := by
    cbv
  rw [Project.detected, Project.scan_contents, hmanifests, hmain, htest]
  rfl

theorem detected_bare (source test : StoredFile) (now : Timestamp) :
    atRoot.project.detected (bare source test) now =
      .ok ((plainScan source test).profile atRoot.project.directory now) := by
  obtain ⟨hmain, htest, -⟩ := sources_bare source test
  have hmanifests : atRoot.project.manifests (bare source test) = .ok {} := by
    cbv
  rw [Project.detected, Project.scan_contents, hmanifests, hmain, htest]
  rfl

theorem inert_memory (c : Cache) (t : MemoryTree) : c.Inert t := by
  have hread {q data : String}
      (h : FileTree.read (FileTree.makeDirectories t c.directory.text).1 q = .ok data) :
      FileTree.read t q = .ok data :=
    (read_congr (makeDirectories_files t c.directory.text) q).symm.trans h
  exact ⟨hread, hread⟩

variable (hk : plainChecksum source = .ok k)

include hk

theorem save_cached (htree : s.tree = cached source test profile checksum) :
    runs (atRoot.save p) s = (.ok (p.stamped s.now), { s with
      tree := cached source test ⟨(p.stamped s.now).document, .double s.clock⟩
        ⟨k, .double s.clock⟩ }) := by
  have hwritable : atRoot.Writable s.tree := by
    rw [htree]
    exact writable_cached source test profile checksum
  have hchecksum : atRoot.project.checksum
      (atRoot.stored s.tree s.clock (p.stamped s.now).document) = .ok k := by
    rw [htree, stored_cached, checksum_cached, hk]
  rw [hwritable.save_runs hchecksum, htree, sealed_cached]

theorem loadOrDetect_bare (refresh : Bool) (htree : s.tree = bare source test) :
    ∃ s', runs (atRoot.loadOrDetect refresh) s =
        (.ok ((plainScan source test).profile atRoot.project.directory s.now), s') ∧
      s.SameMoment s' ∧ s'.tree = cached source test
        ⟨((plainScan source test).profile atRoot.project.directory s.now).document,
          .double s.clock⟩ ⟨k, .double s.clock⟩ := by
  have hdetected := detected_bare source test s.now
  obtain ⟨-, -, -, habsent⟩ := sources_bare source test
  have hwritable : atRoot.Writable s.tree := htree ▸ writable_bare source test
  have hchecksum : atRoot.project.checksum (atRoot.stored s.tree s.clock
      ((plainScan source test).profile atRoot.project.directory s.now).document) = .ok k := by
    rw [htree, stored_bare, checksum_described, hk]
  rw [← htree] at hdetected habsent
  obtain ⟨s', hrun, hafter, -⟩ := hwritable.loadOrDetect_runs hdetected habsent hchecksum refresh
  have hmoment := atRoot.loadOrDetect_moment refresh s
  rw [hrun] at hmoment
  rw [htree, sealed_bare] at hafter
  exact ⟨s', hrun, hmoment, hafter⟩

theorem detectAgain_cached (hp : p.Storable)
    (htree : s.tree = cached source test ⟨p.document, time⟩ checksum) :
    ∃ r s', runs atRoot.detectAgain s = (.ok r, s') ∧ s.SameMoment s' ∧
      r = (((plainScan source test).profile atRoot.project.directory s.now).carryLockedFrom
        p).stamped s.now ∧
      s'.tree = cached source test ⟨r.document, .double s.clock⟩ ⟨k, .double s.clock⟩ := by
  have hload : (atRoot.load s.tree s.now).result = .ok (some p) := by
    rw [htree]
    exact load_cached hp
  have hdetected := detected_cached source test ⟨p.document, time⟩ checksum s.now
  rw [← htree] at hdetected
  have hmoment := atRoot.detectAgain_moment s
  rcases atRoot.detectAgain_cases s with ⟨e, s₁, -, -, herror | herror⟩ |
    ⟨previous, scan, s₁, hquiet, hprevious, hscan, hrun⟩
  · rw [hload] at herror
    cases herror
  · rw [Project.detected, ← Project.scan_announces _ _ s.announces, herror] at hdetected
    cases hdetected
  · rw [Project.detected, ← Project.scan_announces _ _ s.announces, hscan] at hdetected
    rw [hload] at hprevious
    obtain rfl : some p = previous := Except.ok.inj hprevious
    have htree₁ := hquiet.tree.trans htree
    have hwritable : atRoot.Writable s₁.tree := by
      rw [htree₁]
      exact writable_cached source test ⟨p.document, time⟩ checksum
    have hprofile : scan.profile atRoot.project.directory s.now =
        (plainScan source test).profile atRoot.project.directory s.now := Except.ok.inj hdetected
    have hchecksum : atRoot.project.checksum (atRoot.stored s₁.tree s₁.clock
        (((scan.profile atRoot.project.directory s.now).carryFrom? (some p)).stamped
          s₁.now).document) = .ok k := by
      rw [htree₁, stored_cached, checksum_cached, hk]
    obtain ⟨s', hsave, hsaved, -⟩ := hwritable.saveIfPossible_runs hchecksum
    rw [htree₁, sealed_cached, hquiet.now, hquiet.clock] at hsaved
    rw [hrun, hsave] at hmoment ⊢
    refine ⟨_, s', rfl, hmoment, ?_, ?_⟩
    · rw [hquiet.now]
      change ((scan.profile _ _).carryLockedFrom p).stamped s.now = _
      rw [hprofile]
    · rw [hquiet.now]
      exact hsaved

theorem locks_cached {words names : List String} {i : Command.Invocation} {locked : Bool}
    {targets : List LockTarget} (hread : Command.read words = .ok (.run i))
    (hname : i.name.changesLocks = some locked) (harguments : i.words.arguments = "/" :: names)
    (hnames : names ≠ []) (htargets : Command.lockTargets names = .ok targets) (hp : p.Storable)
    (hfresh : atRoot.isStale p s.now = false) (hsettings : s.settings = {})
    (htree : s.tree = cached source test ⟨p.document, time⟩ ⟨k, time'⟩) :
    ((Command.run words).run s).1.status = 0 ∧
      s.SameMoment ((Command.run words).run s).2 ∧
      ((Command.run words).run s).2.tree = cached source test
        ⟨((targets.foldl (fun p t => t.setLocked locked p) p).stamped s.now).document,
          .double s.clock⟩ ⟨k, .double s.clock⟩ := by
  have hcache : Cache.ofSettings s.settings ⟨.single, []⟩ none none none = .ok atRoot := by
    rw [hsettings]
    rfl
  have hvalid : (atRoot.isValid s.tree s.now).result = .ok true := by
    rw [htree]
    exact isValid_cached hk hp hfresh
  have hload : (atRoot.load s.tree s.now).result = .ok (some p) := by
    rw [htree]
    exact load_cached hp
  obtain ⟨s₁, hquiet, hrun⟩ := atRoot.loadOrDetect_of_valid hvalid hload
  have hsave := save_cached (p := targets.foldl (fun p t => t.setLocked locked p) p) hk
    (hquiet.tree.trans htree)
  obtain ⟨text, hupdate⟩ := Command.updateLocks_runs names hcache hrun hsave
  have hreal : FileTree.realPath s.tree "/" = .ok ⟨.single, []⟩ := by
    have habsolute : (Path.ofString "/").absolute = ⟨.single, []⟩ := by decide +kernel
    exact congrArg Except.ok habsolute
  have hdirectory : FileTree.isDirectory s.tree (Path.mk .single []).text = .ok true := by
    have hkey : key (Path.mk .single []).text = ⟨.single, []⟩ := by decide +kernel
    rw [htree, isDirectory_eq, hkey]
    rfl
  rw [Command.run_updates hread hname harguments hreal hdirectory hnames htargets hupdate,
    hquiet.now, hquiet.clock]
  exact ⟨rfl, ⟨rfl, hquiet.settings, hquiet.terminal⟩, rfl⟩

end JavaProfile.Cache
