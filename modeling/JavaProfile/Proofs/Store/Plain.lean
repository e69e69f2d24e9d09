import JavaProfile.Proofs.Project.Beside
import JavaProfile.Proofs.Store.Root
import JavaProfile.Proofs.Store.Whole

/-!
Caches of projects in memory, which never get in the way of source files, and a project with one
source file and one test, whatever they hold: what a cache of it does, step by step.
-/

namespace JavaProfile

namespace MemoryTree

variable {t t' : MemoryTree}

/-! ### Trees with the same paths -/

/-- The same paths lead to files, and the same to directories. -/
structure SamePaths (t t' : MemoryTree) : Prop where
  files : t'.files.map Prod.fst = t.files.map Prod.fst
  directories : t'.directories = t.directories

namespace SamePaths

theorem hasFile (h : t.SamePaths t') (k : Path) : t'.hasFile k = t.hasFile k := by
  rw [MemoryTree.hasFile, file?, lookup_isSome, h.files, ← lookup_isSome]
  rfl

theorem makeDirectories (h : t.SamePaths t') (p : String) :
    (t'.makeDirectories p).2 = (t.makeDirectories p).2 ∧
      (t.makeDirectories p).1.SamePaths (t'.makeDirectories p).1 := by
  have hmissing (k : Path) : t'.missing k = t.missing k := by
    rw [missing, missing]
    congr 1
    funext d
    rw [hasDirectory, h.directories, hasDirectory]
  rw [MemoryTree.makeDirectories, MemoryTree.makeDirectories, h.hasFile]
  split
  · exact ⟨rfl, h⟩
  · exact ⟨rfl, h.files, by rw [hmissing, h.directories]⟩

theorem write (h : t.SamePaths t') (now now' : Float) (p data data' : String) :
    (t'.write now' p data').2 = (t.write now p data).2 ∧
      (t.write now p data).1.SamePaths (t'.write now' p data').1 := by
  have himplied : t'.impliedDirectory p = t.impliedDirectory p := by
    rw [impliedDirectory, hasDirectory, h.directories, impliedDirectory, hasDirectory]
  unfold MemoryTree.write
  rw [himplied]
  split
  · exact ⟨rfl, h⟩
  · next directory _ =>
    obtain ⟨hresult, hpaths⟩ := h.makeDirectories directory
    rcases hmake : t.makeDirectories directory with ⟨r, e | ⟨⟩⟩
    · rcases hmake' : t'.makeDirectories directory with ⟨r', e' | ⟨⟩⟩
      · rw [hmake, hmake'] at hresult hpaths
        exact ⟨hresult, hpaths⟩
      · rw [hmake, hmake'] at hresult
        cases hresult
    · rcases hmake' : t'.makeDirectories directory with ⟨r', e' | ⟨⟩⟩
      · rw [hmake, hmake'] at hresult
        cases hresult
      · rw [hmake, hmake'] at hpaths
        exact ⟨rfl, by rw [map_putFile, map_putFile, hpaths.files], hpaths.directories⟩

end SamePaths

end MemoryTree

namespace Cache

variable (c : Cache) {t : MemoryTree}

/-- In memory it does not matter what is written, and when. -/
theorem writable_of_memory
    (hdirectory : (FileTree.makeDirectories t c.directory.text).2 = .ok ())
    (hprofile : (FileTree.write (FileTree.makeDirectories t c.directory.text).1 0.0
      c.profilePath.text "").2 = .ok ())
    (hchecksum : (FileTree.write (c.stored t 0.0 "") 0.0 c.checksumPath.text "").2 = .ok ()) :
    c.Writable t where
  directory := hdirectory
  profile now document := by
    rw [← hprofile]
    exact (MemoryTree.SamePaths.write ⟨rfl, rfl⟩ _ _ _ _ _).1
  checksum now document checksum := by
    rw [← hchecksum]
    have hstored : (c.stored t 0.0 "").SamePaths (c.stored t now document) :=
      (MemoryTree.SamePaths.write ⟨rfl, rfl⟩ _ _ _ _ _).2
    exact (hstored.write _ _ _ _ _).1

theorem suffix_key_profilePath : (MemoryTree.key c.profilePath.text).suffix ≠ sourceSuffix := by
  have hsuffix : (Path.splitName profileName).2 ≠ sourceSuffix := by decide +kernel
  rw [Path.suffix, name_key_profilePath]
  exact hsuffix

theorem suffix_key_checksumPath : (MemoryTree.key c.checksumPath.text).suffix ≠ sourceSuffix := by
  have hsuffix : (Path.splitName checksumName).2 ≠ sourceSuffix := by decide +kernel
  rw [Path.suffix, name_key_checksumPath]
  exact hsuffix

/-- In memory writing a source file leaves the cache as it is. -/
theorem Saved.sameCache_write {c : Cache} {p : Profile} {checksum : String}
    (h : c.Saved p checksum t) {path : String}
    (hpath : (MemoryTree.key path).suffix = sourceSuffix) (now : Float) (text : String) :
    c.SameCache t (FileTree.write t now path text).1 := by
  have hread {q data : String} (hq : (MemoryTree.key q).suffix ≠ sourceSuffix)
      (hdata : FileTree.read t q = .ok data) :
      FileTree.read (FileTree.write t now path text).1 q = .ok data := by
    refine LawfulTree.read_write_apart hdata (fun heq => hq ?_) now text
    obtain heq : MemoryTree.key path = MemoryTree.key q := Option.some.inj heq
    rw [← heq, hpath]
  obtain ⟨data, hdata⟩ : ∃ data, FileTree.read t c.profilePath.text = .ok data :=
    h.profile.elim (fun h => ⟨_, h⟩) fun h => ⟨_, h⟩
  have hprofile := hread c.suffix_key_profilePath hdata
  have hchecksum := hread c.suffix_key_checksumPath h.checksum
  exact ⟨(LawfulTree.contains_of_read hprofile).trans (LawfulTree.contains_of_read hdata).symm,
    hprofile.trans hdata.symm, hchecksum.trans h.checksum.symm⟩

theorem beside_stored (ht : t.Tidy) (now : Float) (document : String) :
    t.Beside (c.stored t now document) := by
  have hdirectory := MemoryTree.beside_makeDirectories ht c.directory.text
  exact hdirectory.trans
    (MemoryTree.beside_write (hdirectory.tidy ht) now c.suffix_key_profilePath document)

theorem beside_sealed (ht : t.Tidy) (now : Float) (document checksum : String) :
    t.Beside (c.sealed t now document checksum) := by
  have hstored := c.beside_stored ht now document
  exact hstored.trans
    (MemoryTree.beside_write (hstored.tidy ht) now c.suffix_key_checksumPath checksum)

/-- In memory saving leaves the sources as they are. -/
theorem aside_of_tidy (ht : t.Tidy) : c.Aside t where
  checksum now document := (c.beside_stored ht now document).checksum c.project
  contents now document checksum :=
    (c.beside_sealed ht now document checksum).contents ht c.project .main

end Cache

namespace MemoryTree

variable (source test profile checksum : StoredFile)

/-- A project at the root with one source file and one test. -/
def bare : MemoryTree where
  files := [(⟨.single, ["src", "main", "java", "A.java"]⟩, source),
    (⟨.single, ["src", "test", "java", "ATest.java"]⟩, test)]
  directories := [⟨.single, ["src", "test", "java"]⟩, ⟨.single, ["src", "test"]⟩,
    ⟨.single, ["src", "main", "java"]⟩, ⟨.single, ["src", "main"]⟩, ⟨.single, ["src"]⟩,
    ⟨.single, []⟩]

def opened : MemoryTree where
  files := (bare source test).files
  directories := ⟨.single, [".stackprint"]⟩ :: (bare source test).directories

def described : MemoryTree where
  files := (bare source test).files ++ [(⟨.single, [".stackprint", "profile.json"]⟩, profile)]
  directories := (opened source test).directories

def cached : MemoryTree where
  files := (bare source test).files ++ [(⟨.single, [".stackprint", "profile.json"]⟩, profile),
    (⟨.single, [".stackprint", "checksum"]⟩, checksum)]
  directories := (opened source test).directories

theorem write_eq {t t' : MemoryTree} {path directory : String}
    (himplied : t.impliedDirectory path = some directory)
    (hmake : t.makeDirectories directory = (t', .ok ())) (now : Float) (data : String) :
    t.write now path data =
      ({ t' with files := putFile t'.files (key path) ⟨data, .double now⟩ }, .ok ()) := by
  rw [write, himplied]
  dsimp only
  rw [hmake]

/-! ### Paths -/

theorem key_cache :
    key "/.stackprint" = ⟨.single, [".stackprint"]⟩ ∧
      key "/.stackprint/profile.json" = ⟨.single, [".stackprint", "profile.json"]⟩ ∧
      key "/.stackprint/checksum" = ⟨.single, [".stackprint", "checksum"]⟩ := by
  decide +kernel

theorem parent_cache :
    (Path.mk .single [".stackprint", "profile.json"]).parent.text = "/.stackprint" ∧
      (Path.mk .single [".stackprint", "checksum"]).parent.text = "/.stackprint" := by
  decide +kernel

/-! ### Writing the cache -/

theorem makeDirectories_cache :
    (bare source test).makeDirectories "/.stackprint" = (opened source test, .ok ()) ∧
      (opened source test).makeDirectories "/.stackprint" = (opened source test, .ok ()) ∧
      (described source test profile).makeDirectories "/.stackprint" =
        (described source test profile, .ok ()) ∧
      (cached source test profile checksum).makeDirectories "/.stackprint" =
        (cached source test profile checksum, .ok ()) := by
  obtain ⟨hdirectory, -⟩ := key_cache
  refine ⟨?_, ?_, ?_, ?_⟩
  all_goals
    rw [makeDirectories, hdirectory]
    rfl

theorem write_profile (now : Float) (document : String) :
    (opened source test).write now "/.stackprint/profile.json" document =
        (described source test ⟨document, .double now⟩, .ok ()) ∧
      (cached source test profile checksum).write now "/.stackprint/profile.json" document =
        (cached source test ⟨document, .double now⟩ checksum, .ok ()) := by
  obtain ⟨-, hkey, -⟩ := key_cache
  obtain ⟨hparent, -⟩ := parent_cache
  obtain ⟨-, hopened, -, hcached⟩ := makeDirectories_cache source test profile checksum
  constructor
  · rw [write_eq (by rw [impliedDirectory, hkey, hparent]; rfl) hopened, hkey]
    rfl
  · rw [write_eq (by rw [impliedDirectory, hkey, hparent]; rfl) hcached, hkey]
    rfl

theorem write_checksum (now : Float) (data : String) :
    (described source test profile).write now "/.stackprint/checksum" data =
        (cached source test profile ⟨data, .double now⟩, .ok ()) ∧
      (cached source test profile checksum).write now "/.stackprint/checksum" data =
        (cached source test profile ⟨data, .double now⟩, .ok ()) := by
  obtain ⟨-, -, hkey⟩ := key_cache
  obtain ⟨-, hparent⟩ := parent_cache
  obtain ⟨-, -, hdescribed, hcached⟩ := makeDirectories_cache source test profile checksum
  constructor
  · rw [write_eq (by rw [impliedDirectory, hkey, hparent]; rfl) hdescribed, hkey]
    rfl
  · rw [write_eq (by rw [impliedDirectory, hkey, hparent]; rfl) hcached, hkey]
    rfl

theorem read_cached :
    (cached source test profile checksum).read "/.stackprint/profile.json" = .ok profile.data ∧
      (cached source test profile checksum).read "/.stackprint/checksum" = .ok checksum.data := by
  obtain ⟨-, hprofile, hchecksum⟩ := key_cache
  rw [read_eq, read_eq, hprofile, hchecksum]
  exact ⟨rfl, rfl⟩

/-! ### Sources -/

theorem sources_bare :
    Cache.atRoot.project.contents (bare source test) .main =
        .ok [(⟨.single, ["src", "main", "java", "A.java"]⟩, some source.data)] ∧
      Cache.atRoot.project.contents (bare source test) .test =
        .ok [(⟨.single, ["src", "test", "java", "ATest.java"]⟩, some test.data)] ∧
      Cache.atRoot.project.mainEntries (bare source test) =
        .ok [entry ⟨.single, ["src", "main", "java", "A.java"]⟩ source] ∧
      Cache.atRoot.isPresent (bare source test) = .ok false := by
  refine ⟨?_, ?_, ?_, ?_⟩ <;> cbv

theorem sources_cached :
    Cache.atRoot.project.contents (cached source test profile checksum) .main =
        .ok [(⟨.single, ["src", "main", "java", "A.java"]⟩, some source.data)] ∧
      Cache.atRoot.project.contents (cached source test profile checksum) .test =
        .ok [(⟨.single, ["src", "test", "java", "ATest.java"]⟩, some test.data)] ∧
      Cache.atRoot.project.mainEntries (cached source test profile checksum) =
        .ok [entry ⟨.single, ["src", "main", "java", "A.java"]⟩ source] ∧
      Cache.atRoot.project.mainEntries (described source test profile) =
        .ok [entry ⟨.single, ["src", "main", "java", "A.java"]⟩ source] := by
  refine ⟨?_, ?_, ?_, ?_⟩ <;> cbv

end MemoryTree

namespace Cache

open MemoryTree Work

variable (source test profile checksum : StoredFile) (now : Float) (document k : String)

def plainChecksum : Except Failure String :=
  ((atRoot.project.listing
    [entry ⟨.single, ["src", "main", "java", "A.java"]⟩ source]).mapError Failure.number).map
      fun text => Sha256.digest (Text.encode text)

theorem checksum_bare : atRoot.project.checksum (bare source test) = plainChecksum source := by
  obtain ⟨-, -, hentries, -⟩ := sources_bare source test
  rw [Project.checksum_eq, hentries]
  rfl

theorem checksum_cached :
    atRoot.project.checksum (cached source test profile checksum) = plainChecksum source := by
  obtain ⟨-, -, hentries, -⟩ := sources_cached source test profile checksum
  rw [Project.checksum_eq, hentries]
  rfl

theorem checksum_described :
    atRoot.project.checksum (described source test profile) = plainChecksum source := by
  obtain ⟨-, -, -, hentries⟩ := sources_cached source test profile ⟨"", .int 0⟩
  rw [Project.checksum_eq, hentries]
  rfl

theorem stored_bare :
    atRoot.stored (bare source test) now document =
      described source test ⟨document, .double now⟩ := by
  obtain ⟨hdirectory, -⟩ := makeDirectories_cache source test ⟨"", .int 0⟩ ⟨"", .int 0⟩
  obtain ⟨hprofile, -⟩ := write_profile source test ⟨"", .int 0⟩ ⟨"", .int 0⟩ now document
  rw [stored, atRoot_directory, atRoot_profilePath]
  change (((bare source test).makeDirectories _).1.write _ _ _).1 = _
  rw [hdirectory, hprofile]

theorem stored_cached :
    atRoot.stored (cached source test profile checksum) now document =
      cached source test ⟨document, .double now⟩ checksum := by
  obtain ⟨-, -, -, hdirectory⟩ := makeDirectories_cache source test profile checksum
  obtain ⟨-, hprofile⟩ := write_profile source test profile checksum now document
  rw [stored, atRoot_directory, atRoot_profilePath]
  change (((cached source test profile checksum).makeDirectories _).1.write _ _ _).1 = _
  rw [hdirectory, hprofile]

theorem sealed_bare :
    atRoot.sealed (bare source test) now document k =
      cached source test ⟨document, .double now⟩ ⟨k, .double now⟩ := by
  obtain ⟨hchecksum, -⟩ :=
    write_checksum source test ⟨document, .double now⟩ ⟨"", .int 0⟩ now k
  rw [sealed, stored_bare, atRoot_checksumPath]
  change ((described source test _).write _ _ _).1 = _
  rw [hchecksum]

theorem sealed_cached :
    atRoot.sealed (cached source test profile checksum) now document k =
      cached source test ⟨document, .double now⟩ ⟨k, .double now⟩ := by
  obtain ⟨-, hchecksum⟩ := write_checksum source test ⟨document, .double now⟩ checksum now k
  rw [sealed, stored_cached, atRoot_checksumPath]
  change ((cached source test _ _).write _ _ _).1 = _
  rw [hchecksum]

theorem writable_bare : atRoot.Writable (bare source test) where
  directory := by
    obtain ⟨hdirectory, -⟩ := makeDirectories_cache source test ⟨"", .int 0⟩ ⟨"", .int 0⟩
    rw [atRoot_directory]
    exact congrArg Prod.snd hdirectory
  profile now document := by
    obtain ⟨hdirectory, -⟩ := makeDirectories_cache source test ⟨"", .int 0⟩ ⟨"", .int 0⟩
    obtain ⟨hprofile, -⟩ := write_profile source test ⟨"", .int 0⟩ ⟨"", .int 0⟩ now document
    rw [atRoot_directory, atRoot_profilePath]
    change (((bare source test).makeDirectories _).1.write _ _ _).2 = _
    rw [hdirectory, hprofile]
  checksum now document k := by
    obtain ⟨hchecksum, -⟩ :=
      write_checksum source test ⟨document, .double now⟩ ⟨"", .int 0⟩ now k
    rw [stored_bare, atRoot_checksumPath]
    exact congrArg Prod.snd hchecksum

theorem writable_cached : atRoot.Writable (cached source test profile checksum) where
  directory := by
    obtain ⟨-, -, -, hdirectory⟩ := makeDirectories_cache source test profile checksum
    rw [atRoot_directory]
    exact congrArg Prod.snd hdirectory
  profile now document := by
    obtain ⟨-, -, -, hdirectory⟩ := makeDirectories_cache source test profile checksum
    obtain ⟨-, hprofile⟩ := write_profile source test profile checksum now document
    rw [atRoot_directory, atRoot_profilePath]
    change (((cached source test _ _).makeDirectories _).1.write _ _ _).2 = _
    rw [hdirectory, hprofile]
  checksum now document k := by
    obtain ⟨-, hchecksum⟩ := write_checksum source test ⟨document, .double now⟩ checksum now k
    rw [stored_cached, atRoot_checksumPath]
    exact congrArg Prod.snd hchecksum

theorem sameCache_cached (source' test' : StoredFile) :
    atRoot.SameCache (cached source test profile checksum)
      (cached source' test' profile checksum) := by
  obtain ⟨hprofile, hchecksum⟩ := read_cached source test profile checksum
  obtain ⟨hprofile', hchecksum'⟩ := read_cached source' test' profile checksum
  rw [← atRoot_profilePath] at hprofile hprofile'
  rw [← atRoot_checksumPath] at hchecksum hchecksum'
  exact ⟨(LawfulTree.contains_of_read hprofile').trans (LawfulTree.contains_of_read hprofile).symm,
    hprofile'.trans hprofile.symm, hchecksum'.trans hchecksum.symm⟩

theorem saved_cached {p : Profile} (hp : p.Storable) (time time' : Number)
    {project : Project} {t : MemoryTree} (hk : project.checksum t = .ok k) :
    atRoot.Saved p k (cached source test ⟨p.document, time⟩ ⟨k, time'⟩) := by
  obtain ⟨hprofile, hchecksum⟩ := read_cached source test ⟨p.document, time⟩ ⟨k, time'⟩
  rw [← atRoot_profilePath] at hprofile
  rw [← atRoot_checksumPath] at hchecksum
  exact ⟨digest_of_checksum hk, hp, hchecksum, .inl hprofile⟩

theorem load_cached {source test checksum : StoredFile} {p : Profile} {time : Number}
    {now : Timestamp} (hp : p.Storable) :
    (atRoot.load (cached source test ⟨p.document, time⟩ checksum) now).result = .ok (some p) := by
  obtain ⟨hprofile, -⟩ := read_cached source test ⟨p.document, time⟩ checksum
  rw [← atRoot_profilePath] at hprofile
  rw [load_of_read hprofile, parse_document hp]
  rfl

theorem isValid_cached {source test : StoredFile} {k : String} {p : Profile} {time time' : Number}
    {now : Timestamp} (hk : plainChecksum source = .ok k) (hp : p.Storable)
    (hfresh : atRoot.isStale p now = false) :
    (atRoot.isValid (cached source test ⟨p.document, time⟩ ⟨k, time'⟩) now).result = .ok true := by
  have hchecksum : atRoot.project.checksum (cached source test ⟨p.document, time⟩ ⟨k, time'⟩) =
      .ok k := (checksum_cached _ _ _ _).trans hk
  have hsaved := saved_cached source test k hp time time' hchecksum
  obtain ⟨hprofile, -⟩ := read_cached source test ⟨p.document, time⟩ ⟨k, time'⟩
  rw [← atRoot_profilePath] at hprofile
  exact (hsaved.fresh hprofile hchecksum hfresh).2

/-! ### Saving beside the sources -/

theorem aside_bare : atRoot.Aside (bare source test) where
  checksum now document := by
    rw [stored_bare, checksum_described, checksum_bare]
  contents now document k := by
    obtain ⟨hbare, -⟩ := sources_bare source test
    obtain ⟨hcached, -⟩ :=
      sources_cached source test ⟨document, .double now⟩ ⟨k, .double now⟩
    rw [sealed_bare, hbare, hcached]

theorem aside_cached : atRoot.Aside (cached source test profile checksum) where
  checksum now document := by
    rw [stored_cached, checksum_cached, checksum_cached]
  contents now document k := by
    obtain ⟨hcached, -⟩ := sources_cached source test profile checksum
    obtain ⟨hcached', -⟩ :=
      sources_cached source test ⟨document, .double now⟩ ⟨k, .double now⟩
    rw [sealed_cached, hcached, hcached']

/-! ### Some contents -/

def plainSource : StoredFile := ⟨"package a;\nclass A \x7b\x7d", .double 0.0⟩

def plainTest : StoredFile := ⟨"package a;\nclass ATest \x7b\x7d", .double 0.0⟩

theorem hashed_plain : ∃ k, plainChecksum plainSource = .ok k := by
  have hok : (plainChecksum plainSource).isOk = true := by decide +kernel
  cases hk : plainChecksum plainSource with
  | ok k => exact ⟨k, rfl⟩
  | error e =>
    rw [hk] at hok
    cases hok

end Cache

end JavaProfile
