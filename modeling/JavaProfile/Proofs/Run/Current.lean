import JavaProfile.Proofs.Run.Use
import JavaProfile.Proofs.Store.Plain
import JavaProfile.Tree.Disk

/-!
A cache never serves what the main sources have outgrown, as long as one call follows the other and
what is saved is no source itself.
-/

namespace JavaProfile

namespace Cache

open Work

variable {τ : Type} [FileTree τ] [LawfulTree τ] [OverwritingTree τ] {c : Cache} {M : τ → Prop}
  {calls : List (Call τ)} {s s' : Session τ}

/-- Every call of a run returns what would be detected as it returns, but for the time and the
tests. -/
theorem Uses.alike (hM : c.Moments M) (haside : ∀ t, M t → c.Aside t)
    (hstart : c.isPresent s.tree = .ok false) (huses : Uses c M s calls s') :
    ∀ b ∈ calls, ∃ p d, b.result c = .ok p ∧ (runs c.project.detect (b.after c)).1 = .ok d ∧
      p.Alike d := by
  intro b hb
  obtain ⟨later, earlier, hcalls⟩ := List.append_of_mem hb
  obtain ⟨a, -, p, hdetects, hresult, hcontents⟩ := huses.current hM haside hstart hcalls
  obtain ⟨-, hmoment⟩ := huses.split hcalls
  obtain ⟨d, hd⟩ := (hM.scannable hmoment).detected (b.after c).now
  exact ⟨p, d, hresult, by rw [Project.detect_result, hd],
    Project.alike_of_contents hdetects.detected hd hcontents⟩

/-! ### A run in memory -/

open MemoryTree

/-- A project with some source file and any test, with or without a cache. -/
inductive PlainMoment (source : StoredFile) : MemoryTree → Prop where
  | bare (test : StoredFile) : PlainMoment source (bare source test)
  | cached (test profile checksum : StoredFile) :
    PlainMoment source (cached source test profile checksum)

section Plain

variable {source test : StoredFile} {k : String} {p : Profile} {s : Session MemoryTree}
  (hk : plainChecksum source = .ok k)

include hk

theorem moments_plain : atRoot.Moments (PlainMoment source) where
  scannable {t} _ := atRoot.project.scannable_of_memory t
  hashed
    | .bare test => ⟨k, (checksum_bare source test).trans hk⟩
    | .cached test profile checksum =>
      ⟨k, (checksum_cached source test profile checksum).trans hk⟩
  writable
    | .bare test => writable_bare source test
    | .cached test profile checksum => writable_cached source test profile checksum
  distinct {t t'} _ h h' _ _ := by
    have hsource {t : MemoryTree} (h : PlainMoment source t) : atRoot.project.contents t .main =
        .ok [(⟨.single, ["src", "main", "java", "A.java"]⟩, some source.data)] := by
      cases h with
      | bare test => exact (sources_bare source test).1
      | cached test profile checksum => exact (sources_cached source test profile checksum).1
    rw [hsource h, hsource h']

omit hk in
theorem aside_plain {t : MemoryTree} (h : PlainMoment source t) : atRoot.Aside t := by
  cases h with
  | bare test => exact aside_bare source test
  | cached test profile checksum => exact aside_cached source test profile checksum

theorem call_bare (htree : s.tree = bare source test) :
    ∃ p, Call.Detects atRoot ⟨s, false⟩ p ∧
      (Call.after atRoot ⟨s, false⟩).tree =
        cached source test ⟨p.document, .double s.clock⟩ ⟨k, .double s.clock⟩ ∧
      (Call.after atRoot ⟨s, false⟩).clock = s.clock := by
  obtain ⟨p, hp⟩ := (atRoot.project.scannable_of_memory s.tree).detected s.now
  obtain ⟨-, -, -, habsent⟩ := sources_bare source test
  have hwritable : atRoot.Writable s.tree := htree ▸ writable_bare source test
  have hstored : atRoot.project.checksum (atRoot.stored s.tree s.clock p.document) = .ok k := by
    rw [htree, stored_bare, checksum_described, hk]
  obtain ⟨hresult, hafter, hclock⟩ := Call.of_absent hwritable hp (htree ▸ habsent) hstored
  exact ⟨p, ⟨hresult, hp⟩, by rw [hafter, htree, sealed_bare], hclock⟩

theorem call_cached {time time' : Number} (hp : p.Storable)
    (htree : s.tree = cached source test ⟨p.document, time⟩ ⟨k, time'⟩)
    (hfresh : atRoot.isStale p s.now = false) :
    Call.result atRoot ⟨s, false⟩ = .ok p ∧ (Call.after atRoot ⟨s, false⟩).tree = s.tree ∧
      (Call.after atRoot ⟨s, false⟩).clock = s.clock := by
  have hcurrent : atRoot.project.checksum s.tree = .ok k := by
    rw [htree, checksum_cached, hk]
  have hsaved : atRoot.Saved p k s.tree := htree ▸ saved_cached source test k hp time time' hcurrent
  obtain ⟨hprofile, -⟩ := read_cached source test ⟨p.document, time⟩ ⟨k, time'⟩
  rw [← htree, ← atRoot_profilePath] at hprofile
  exact Call.of_saved hsaved hprofile hcurrent hfresh

theorem uses_cached {M : MemoryTree → Prop} {time time' : Number} {s₀ : Session MemoryTree}
    {calls : List (Call MemoryTree)} (huses : Uses atRoot M s₀ calls s) (hp : p.Storable)
    (htree : s.tree = cached source test ⟨p.document, time⟩ ⟨k, time'⟩)
    (hfresh : atRoot.isStale p s.now = false) :
    ∃ b : Call MemoryTree, b.before = s ∧ Uses atRoot M s₀ (b :: calls) (b.after atRoot) ∧
      b.result atRoot = .ok p ∧ (b.after atRoot).tree = s.tree ∧
      (b.after atRoot).clock = s.clock := by
  obtain ⟨hresult, hafter, hclock⟩ := call_cached hk hp htree hfresh
  exact ⟨⟨s, false⟩, rfl, .call false huses (hafter ▸ huses.moment), hresult, hafter, hclock⟩

end Plain

def mockingTest : StoredFile :=
  ⟨"package a;\nimport org.mockito.Mockito;\nclass ATest \x7b\x7d", .double 3600.0⟩

def plainSession : Session MemoryTree where
  tree := bare plainSource plainTest
  clock := 0.0

theorem absent_plain : atRoot.isPresent plainSession.tree = .ok false :=
  (sources_bare plainSource plainTest).2.2.2

/-- An hour after a first call has detected a profile, a second one returns it, and so does a third
one when the test has changed. -/
theorem uses_plain :
    ∃ p a b, Uses atRoot (PlainMoment plainSource) plainSession [b, a, ⟨plainSession, false⟩]
        (b.after atRoot) ∧
      Call.Detects atRoot ⟨plainSession, false⟩ p ∧ a.result atRoot = .ok p ∧
      b.result atRoot = .ok p ∧
      ∃ profile checksum, a.before.tree = cached plainSource plainTest profile checksum ∧
        (a.after atRoot).tree = cached plainSource plainTest profile checksum ∧
        (b.after atRoot).tree = cached plainSource mockingTest profile checksum := by
  obtain ⟨k, hk⟩ := hashed_plain
  obtain ⟨p, hdetects, htree, -⟩ := call_bare (s := plainSession) hk rfl
  have hstorable := Project.detected_storable hdetects.detected
  have hfresh (s : Session MemoryTree) (hclock : s.clock = 3600.0) :
      atRoot.isStale p s.now = false := by
    rw [isStale, Profile.age, Project.detectedAt_of_detected hdetects.detected, Session.now, hclock]
    decide +kernel
  have hfirst : Uses atRoot (PlainMoment plainSource) plainSession [⟨plainSession, false⟩]
      { Call.after atRoot ⟨plainSession, false⟩ with clock := 3600.0 } :=
    .clock 3600.0 (.call false (.start (.bare _)) (htree ▸ .cached ..))
  obtain ⟨a, ha, huses, hagain, hagaintree, hclock⟩ :=
    uses_cached hk hfirst hstorable htree (hfresh _ rfl)
  have hcached := hagaintree.trans htree
  have hsame := sameCache_cached plainSource plainTest ⟨p.document, .double plainSession.clock⟩
    ⟨k, .double plainSession.clock⟩ plainSource mockingTest
  rw [← hcached] at hsame
  obtain ⟨b, -, huses', htested, htestedtree, -⟩ :=
    uses_cached hk (huses.edit _ hsame (.cached ..)) hstorable rfl (hfresh _ hclock)
  exact ⟨p, a, b, huses', hdetects, hagain, htested, _, _, ha ▸ htree, hcached, htestedtree⟩

/-- A first call detects, and an hour later a second one uses what it has left. -/
theorem alike_plain :
    ∃ calls s', Uses atRoot (PlainMoment plainSource) plainSession calls s' ∧ calls.length = 3 ∧
      ∀ b ∈ calls, ∃ p d, b.result atRoot = .ok p ∧
        (runs atRoot.project.detect (b.after atRoot)).1 = .ok d ∧ p.Alike d := by
  obtain ⟨k, hk⟩ := hashed_plain
  obtain ⟨-, a, b, huses, -⟩ := uses_plain
  exact ⟨_, _, huses, rfl, huses.alike (moments_plain hk) (fun _ h => aside_plain h) absent_plain⟩

end Cache

/-! ### A source that is the cache

The one source file of a project is a link to its cached profile. There is no such file until a
profile is saved; after that the source holds the document of the profile.
-/

namespace DiskTree

/-- Where the source is a link, and perhaps a cache has been written. -/
def aliased (cache : List (Location × Node)) : DiskTree where
  nodes := cache ++
    [(["src"], .directory), (["src", "main"], .directory), (["src", "main", "java"], .directory),
      (["src", "main", "java", "A.java"], .link "../../../.stackprint/profile.json"),
      (["src", "test"], .directory), (["src", "test", "java"], .directory),
      (["src", "test", "java", "ATest.java"], .file (Text.encode "package a;"))]

/-- A cache with the bytes of a document. -/
def cachedDocument (document : List UInt8) : List (Location × Node) :=
  [([".stackprint", "profile.json"], .file document), ([".stackprint"], .directory)]

/-- A cache with the bytes of a document and of a checksum. -/
def cachedBoth (document checksum : List UInt8) : List (Location × Node) :=
  ([".stackprint", "checksum"], .file checksum) :: cachedDocument document

variable (document checksum document' checksum' : List UInt8)

theorem writes_aliased :
    (aliased []).makeDirectories (Path.ofString "/.stackprint") =
        (aliased [([".stackprint"], .directory)], .ok ()) ∧
      (aliased [([".stackprint"], .directory)]).writeBytes
        (Path.ofString "/.stackprint/profile.json") document =
          (aliased (cachedDocument document), .ok ()) ∧
      (aliased (cachedDocument document)).writeBytes (Path.ofString "/.stackprint/checksum")
        checksum = (aliased (cachedBoth document checksum), .ok ()) ∧
      (aliased (cachedBoth document checksum)).makeDirectories (Path.ofString "/.stackprint") =
        (aliased (cachedBoth document checksum), .ok ()) ∧
      ((aliased (cachedBoth document checksum)).writeBytes
        (Path.ofString "/.stackprint/profile.json") document').2 = .ok () ∧
      (((aliased (cachedBoth document checksum)).writeBytes
        (Path.ofString "/.stackprint/profile.json") document').1.writeBytes
          (Path.ofString "/.stackprint/checksum") checksum').2 = .ok () := by
  refine ⟨?_, ?_, ?_, ?_, ?_, ?_⟩ <;> cbv

theorem sources_aliased :
    Cache.atRoot.project.contents (aliased []) .main = .ok [] ∧
      Cache.atRoot.project.contents (aliased (cachedBoth document checksum)) .main =
        .ok [(⟨.single, ["src", "main", "java", "A.java"]⟩,
          some (String.ofList (Text.unifyBreaks (Text.decode document))))] ∧
      Cache.atRoot.project.mainEntries (aliased []) = .ok [] ∧
      Cache.atRoot.project.mainEntries (aliased (cachedDocument document)) =
        .ok [⟨⟨.single, ["src", "main", "java", "A.java"]⟩, document.length, .int 0⟩] ∧
      Cache.atRoot.project.mainEntries (aliased (cachedBoth document checksum)) =
        .ok [⟨⟨.single, ["src", "main", "java", "A.java"]⟩, document.length, .int 0⟩] := by
  refine ⟨?_, ?_, ?_, ?_, ?_⟩ <;> cbv

def aliasedTests : List (Path × Option String) :=
  [(⟨.single, ["src", "test", "java", "ATest.java"]⟩, some "package a;")]

theorem others_aliased :
    Cache.atRoot.project.contents (aliased []) .test = .ok aliasedTests ∧
      Cache.atRoot.project.contents (aliased (cachedBoth document checksum)) .test =
        .ok aliasedTests ∧
      Cache.atRoot.project.manifests (aliased []) = .ok {} ∧
      Cache.atRoot.project.manifests (aliased (cachedBoth document checksum)) = .ok {} ∧
      Cache.atRoot.isPresent (aliased []) = .ok false := by
  refine ⟨?_, ?_, ?_, ?_, ?_⟩ <;> cbv

end DiskTree

namespace Cache

open Work DiskTree

/-- A session on a disk where the source is a link to nothing yet. -/
def aliasedSession : Session DiskTree where
  tree := aliased []
  clock := 0.0

/-- What is detected where there is no source file. -/
def aliasedProfile : Profile :=
  (Scan.ofFiles [] (Project.filesOf .test aliasedTests) {} {}).profile atRoot.project.directory
    aliasedSession.now

theorem storable_aliasedProfile : aliasedProfile.Storable :=
  Scan.storable_profile _ _ _

theorem absent_aliased : atRoot.isPresent aliasedSession.tree = .ok false :=
  (others_aliased [] []).2.2.2.2

/-- The length of the document, which begins no source. -/
theorem document_aliasedProfile :
    (Text.encode aliasedProfile.document).length = 1260 ∧
      Source.readHeader aliasedProfile.document = Source.readHeader "" := by
  have hlength : ((Json.render .document 0 aliasedProfile.toJson []).flatMap
      String.utf8EncodeChar).length = 1260 := by
    decide +kernel
  have hlines : Source.readLines false {} (Text.lines (Json.render .document 0 aliasedProfile.toJson
      [])) = Source.readHeader "" := by
    decide +kernel
  rw [Text.encode_eq, Source.readHeader, Profile.document, Json.write, String.toList_ofList, hlength,
    hlines]
  exact ⟨rfl, rfl⟩

theorem signs_aliasedProfile :
    aliasedProfile.architecture = .layered ∧ aliasedProfile.testing.mirrorsMain = true := by
  rw [aliasedProfile, Scan.architecture_profile, Scan.testing_profile]
  decide +kernel

def aliasedChecksum : String :=
  "4d860330d75a129e75a4d5699b7ce2d408cb7a589eb3cb3cb112483b015e7053"

theorem checksum_of_entries {τ : Type} [FileTree τ] {t : τ} {entries : List FileEntry} {k : String}
    (hentries : atRoot.project.mainEntries t = .ok entries)
    (hk : ((atRoot.project.listing entries).mapError Failure.number).map
      (fun text => Sha256.digest (Text.encode text)) = .ok k) :
    atRoot.project.checksum t = .ok k := by
  rw [Project.checksum_eq, hentries]
  exact hk

theorem listings_aliased :
    ((atRoot.project.listing []).mapError Failure.number).map
        (fun text => Sha256.digest (Text.encode text)) = .ok emptyChecksum ∧
      ((atRoot.project.listing [⟨⟨.single, ["src", "main", "java", "A.java"]⟩, 1260, .int 0⟩]).mapError
        Failure.number).map (fun text => Sha256.digest (Text.encode text)) = .ok aliasedChecksum := by
  decide +kernel

theorem checksum_aliased : atRoot.project.checksum (aliased []) = .ok emptyChecksum := by
  obtain ⟨-, -, hentries, -⟩ := sources_aliased [] []
  exact checksum_of_entries hentries listings_aliased.1

theorem checksum_cachedDocument :
    atRoot.project.checksum (aliased (cachedDocument (Text.encode aliasedProfile.document))) =
      .ok aliasedChecksum := by
  obtain ⟨-, -, -, hentries, -⟩ := sources_aliased (Text.encode aliasedProfile.document) []
  rw [document_aliasedProfile.1] at hentries
  exact checksum_of_entries hentries listings_aliased.2

theorem checksum_cachedBoth (k : List UInt8) :
    atRoot.project.checksum (aliased (cachedBoth (Text.encode aliasedProfile.document) k)) =
      .ok aliasedChecksum := by
  obtain ⟨-, -, -, -, hentries⟩ := sources_aliased (Text.encode aliasedProfile.document) k
  rw [document_aliasedProfile.1] at hentries
  exact checksum_of_entries hentries listings_aliased.2

theorem detected_aliased :
    atRoot.project.detected aliasedSession.tree aliasedSession.now = .ok aliasedProfile := by
  obtain ⟨hmain, -⟩ := sources_aliased [] []
  obtain ⟨htest, -, hmanifests, -⟩ := others_aliased [] []
  rw [Project.detected, Project.scan_contents, aliasedSession, hmanifests, hmain, htest]
  rfl

theorem detected_cachedBoth (k : List UInt8) (now : Timestamp) :
    ∃ d, atRoot.project.detected
        (aliased (cachedBoth (Text.encode aliasedProfile.document) k)) now = .ok d ∧
      d.architecture = .flat ∧ d.testing.mirrorsMain = false := by
  obtain ⟨-, hmain, -⟩ := sources_aliased (Text.encode aliasedProfile.document) k
  obtain ⟨-, htest, -, hmanifests, -⟩ := others_aliased (Text.encode aliasedProfile.document) k
  have htext : String.ofList (Text.unifyBreaks
      (Text.decode (Text.encode aliasedProfile.document))) = aliasedProfile.document := by
    rw [Text.decode_encode, Text.unifyBreaks_of_notMem storable_aliasedProfile.notMem_document,
      String.ofList_toList]
  have hsource : SourceFile.ofText aliasedProfile.document "/src/main/java/A.java" false =
      SourceFile.ofText "" "/src/main/java/A.java" false := by
    rw [SourceFile.ofText, document_aliasedProfile.2, SourceFile.ofText]
  have hfiles : Project.filesOf .main
      [(⟨.single, ["src", "main", "java", "A.java"]⟩, some aliasedProfile.document)] =
        [SourceFile.ofText "" "/src/main/java/A.java" false] := by
    have hpath : (Path.mk .single ["src", "main", "java", "A.java"]).text =
        "/src/main/java/A.java" := by
      decide +kernel
    rw [Project.filesOf, List.filterMap_cons]
    dsimp only [Option.map]
    rw [hpath]
    exact congrArg (fun f => [f]) hsource
  rw [Project.detected, Project.scan_contents, hmanifests, hmain, htext, htest]
  refine ⟨(Scan.ofFiles (Project.filesOf .main [(⟨.single, ["src", "main", "java", "A.java"]⟩,
    some aliasedProfile.document)]) (Project.filesOf .test aliasedTests) atRoot.project.roots
      {}).profile atRoot.project.directory now, rfl, ?_⟩
  rw [hfiles, Scan.architecture_profile, Scan.testing_profile]
  decide +kernel

/-! ### Saving -/

theorem stored_aliased (now : Float) (document : String) :
    atRoot.stored (aliased []) now document = aliased (cachedDocument (Text.encode document)) := by
  obtain ⟨hdirectory, hwrite, -⟩ := writes_aliased (Text.encode document) [] [] []
  rw [stored, atRoot_directory, atRoot_profilePath]
  change (((aliased []).makeDirectories _).1.writeBytes _ _).1 = _
  rw [hdirectory, hwrite]

theorem sealed_aliased (now : Float) (document checksum : String) :
    atRoot.sealed (aliased []) now document checksum =
      aliased (cachedBoth (Text.encode document) (Text.encode checksum)) := by
  obtain ⟨-, -, hwrite, -⟩ := writes_aliased (Text.encode document) (Text.encode checksum) [] []
  rw [sealed, stored_aliased, atRoot_checksumPath]
  change ((aliased _).writeBytes _ _).1 = _
  rw [hwrite]

theorem writable_aliased : atRoot.Writable (aliased []) where
  directory := by
    obtain ⟨hdirectory, -⟩ := writes_aliased [] [] [] []
    rw [atRoot_directory]
    change ((aliased []).makeDirectories _).2 = _
    rw [hdirectory]
  profile now document := by
    obtain ⟨hdirectory, hwrite, -⟩ := writes_aliased (Text.encode document) [] [] []
    rw [atRoot_directory, atRoot_profilePath]
    change (((aliased []).makeDirectories _).1.writeBytes _ _).2 = _
    rw [hdirectory, hwrite]
  checksum now document checksum := by
    obtain ⟨-, -, hwrite, -⟩ := writes_aliased (Text.encode document) (Text.encode checksum) [] []
    rw [stored_aliased, atRoot_checksumPath]
    change ((aliased _).writeBytes _ _).2 = _
    rw [hwrite]

theorem writable_cachedBoth (bytes k : List UInt8) : atRoot.Writable (aliased (cachedBoth bytes k)) where
  directory := by
    obtain ⟨-, -, -, hdirectory, -⟩ := writes_aliased bytes k [] []
    rw [atRoot_directory]
    change ((aliased _).makeDirectories _).2 = _
    rw [hdirectory]
  profile now document := by
    obtain ⟨-, -, -, hdirectory, hwrite, -⟩ := writes_aliased bytes k (Text.encode document) []
    rw [atRoot_directory, atRoot_profilePath]
    change (((aliased _).makeDirectories _).1.writeBytes _ _).2 = _
    rw [hdirectory, hwrite]
  checksum now document checksum := by
    obtain ⟨-, -, -, hdirectory, -, hwrite⟩ :=
      writes_aliased bytes k (Text.encode document) (Text.encode checksum)
    rw [stored, atRoot_directory, atRoot_profilePath, atRoot_checksumPath]
    change ((((aliased _).makeDirectories _).1.writeBytes _ _).1.writeBytes _ _).2 = _
    rw [hdirectory, hwrite]


/-- The trees before and after a call where the source is a link to the cached profile. -/
inductive AliasedMoment : DiskTree → Prop where
  | before : AliasedMoment (aliased [])
  | after (k : List UInt8) :
    AliasedMoment (aliased (cachedBoth (Text.encode aliasedProfile.document) k))

theorem scannable_aliased {t : DiskTree} (h : AliasedMoment t) : atRoot.project.Scannable t := by
  cases h with
  | before =>
    obtain ⟨hmain, -⟩ := sources_aliased [] []
    obtain ⟨htest, -, hmanifests, -⟩ := others_aliased [] []
    exact ⟨⟨_, hmanifests⟩, fun | .main => ⟨_, hmain⟩ | .test => ⟨_, htest⟩⟩
  | after k =>
    obtain ⟨-, hmain, -⟩ := sources_aliased (Text.encode aliasedProfile.document) k
    obtain ⟨-, htest, -, hmanifests, -⟩ := others_aliased (Text.encode aliasedProfile.document) k
    exact ⟨⟨_, hmanifests⟩, fun | .main => ⟨_, hmain⟩ | .test => ⟨_, htest⟩⟩

theorem distinct_aliased {t t' : DiskTree} {k : String} (h : AliasedMoment t)
    (h' : AliasedMoment t') (hk : atRoot.project.checksum t = .ok k)
    (hk' : atRoot.project.checksum t' = .ok k) :
    atRoot.project.contents t' .main = atRoot.project.contents t .main := by
  have hne : emptyChecksum ≠ aliasedChecksum := by decide
  cases h with
  | before =>
    cases h' with
    | before => rfl
    | after l' =>
      rw [checksum_aliased] at hk
      rw [checksum_cachedBoth] at hk'
      exact absurd (Except.ok.inj (hk.trans hk'.symm)) hne
  | after l =>
    cases h' with
    | before =>
      rw [checksum_cachedBoth] at hk
      rw [checksum_aliased] at hk'
      exact absurd (Except.ok.inj (hk'.trans hk.symm)) hne
    | after l' =>
      obtain ⟨-, hmain, -⟩ := sources_aliased (Text.encode aliasedProfile.document) l
      obtain ⟨-, hmain', -⟩ := sources_aliased (Text.encode aliasedProfile.document) l'
      rw [hmain, hmain']

theorem moments_aliased : atRoot.Moments AliasedMoment where
  scannable := scannable_aliased
  hashed
    | .before => ⟨_, checksum_aliased⟩
    | .after k => ⟨_, checksum_cachedBoth k⟩
  writable
    | .before => writable_aliased
    | .after k => writable_cachedBoth _ k
  distinct := distinct_aliased

/-- A first call returns what is detected without a cache, and leaves a project that is flat. -/
theorem call_aliased :
    Call.result atRoot ⟨aliasedSession, false⟩ = .ok aliasedProfile ∧
      (Call.after atRoot ⟨aliasedSession, false⟩).tree =
        aliased (cachedBoth (Text.encode aliasedProfile.document) (Text.encode aliasedChecksum)) ∧
      ∃ d, (runs atRoot.project.detect (Call.after atRoot ⟨aliasedSession, false⟩)).1 = .ok d ∧
        d.architecture = .flat ∧ d.testing.mirrorsMain = false := by
  have hstored : atRoot.project.checksum
      (atRoot.stored (aliased []) aliasedSession.clock aliasedProfile.document) =
        .ok aliasedChecksum := by
    rw [stored_aliased, checksum_cachedDocument]
  obtain ⟨hresult, hafter, -⟩ :=
    Call.of_absent writable_aliased detected_aliased absent_aliased hstored
  have htree := hafter.trans (sealed_aliased _ _ _)
  refine ⟨hresult, htree, ?_⟩
  rw [Project.detect_result, htree]
  exact detected_cachedBoth _ _

theorem uses_aliased :
    Uses atRoot AliasedMoment aliasedSession [⟨aliasedSession, false⟩]
      (Call.after atRoot ⟨aliasedSession, false⟩) := by
  obtain ⟨-, htree, -⟩ := call_aliased
  exact .call false (.start .before) (htree ▸ .after _)

/-- Where a source is the cached profile, saving the profile is an edit, and what is returned is
outdated at once. -/
theorem not_alike_aliased :
    atRoot.Moments AliasedMoment ∧ atRoot.isPresent aliasedSession.tree = .ok false ∧
      ∃ calls s', Uses atRoot AliasedMoment aliasedSession calls s' ∧ ∃ b ∈ calls, ∃ p d,
        b.result atRoot = .ok p ∧ (runs atRoot.project.detect (b.after atRoot)).1 = .ok d ∧
          ¬ p.Alike d := by
  obtain ⟨hresult, -, d, hd, hflat, -⟩ := call_aliased
  refine ⟨moments_aliased, absent_aliased, _, _, uses_aliased, _, List.mem_cons_self,
    aliasedProfile, d, hresult, hd, ?_⟩
  intro halike
  have heq := halike.architecture
  rw [signs_aliasedProfile.1, hflat] at heq
  cases heq

end Cache

end JavaProfile
