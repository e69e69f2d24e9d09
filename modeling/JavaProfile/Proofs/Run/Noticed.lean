import JavaProfile.Proofs.Project.Injective
import JavaProfile.Proofs.Run.HalfSave
import JavaProfile.Proofs.Store.Valid
import JavaProfile.Proofs.Tree.CallsOnDisk

/-!
Edits that a saved checksum shows. Sources that differ in a path, a size or a second have another
text, unless a path on one side reads like a whole line and the start of the next one on the other.
-/

namespace JavaProfile.Cache

variable {τ : Type} [FileTree τ] {c : Cache} {p : Profile} {t t' : τ} {k : String}
  {now : Timestamp}

namespace Save

variable {a : Save τ}

theorem saved [LawfulTree τ] [OverwritingTree τ] (hp : a.profile.Storable)
    (hk : a.checksum? c = some k) : c.Saved (a.profile.stamped a.before.now) k (a.after c).tree := by
  obtain ⟨hstores, hchecksum, hwrite, htree⟩ := after_of_sealed hk
  obtain ⟨message, rfl⟩ := digest_of_checksum hchecksum
  have hstorable := hp.stamped a.before.now
  have hdocument : FileTree.read (a.written c) c.profilePath.text = .ok a.document :=
    LawfulTree.read_write hstorable.notMem_document (Prod.ext rfl (written_ok hstores))
  rw [htree]
  refine ⟨⟨message, rfl⟩, hstorable, ?_, ?_⟩
  · exact LawfulTree.read_write (Sha256.notMem_digest message) (Prod.ext rfl hwrite)
  · exact OverwritingTree.read_write_or hdocument (Sha256.notMem_digest message) _ _

theorem checksum?_of_writable (hwritable : c.Writable a.before.tree)
    (hchecksum : c.project.checksum (a.written c) = .ok k) :
    a.checksum? c = some k ∧
      (a.after c).tree = c.sealed a.before.tree a.before.clock a.document k := by
  have hstores : a.stores c = true := by
    rw [stores, hwritable.directory, show (FileTree.write (a.opened c) _ _ _).2 = .ok () from
      hwritable.profile _ _]
    rfl
  have hwrite : (FileTree.write (a.written c) a.before.clock c.checksumPath.text k).2 = .ok () :=
    hwritable.checksum _ _ _
  constructor
  · rw [checksum?, if_pos hstores, hchecksum]
    dsimp only
    rw [hwrite]
    rfl
  · rw [after, hwritable.save_runs hchecksum]
    rfl

end Save

theorem Saved.isValid_false [LawfulTree τ] (h : c.Saved p k t)
    (hother : c.project.checksum t ≠ .ok k)
    (herror : ∀ e, c.project.checksum t = .error e → ∃ cause, e = .tree cause ∧ cause.isSystem = true)
    (now : Timestamp) : (c.isValid t now).result = .ok false := by
  cases hcurrent : c.project.checksum t with
  | ok current =>
    obtain ⟨valid, hvalid, hfits⟩ := h.isValid hcurrent now
    cases valid with
    | false => exact hvalid
    | true =>
      obtain ⟨-, -, rfl⟩ := hfits rfl
      exact absurd hcurrent hother
  | error e =>
    obtain ⟨cause, rfl, hsystem⟩ := herror e hcurrent
    have hmatches : c.matchesSources t = .error (.tree cause) := by
      rw [Cache.matchesSources, h.checksum, hcurrent]
      rfl
    rw [isValid_result]
    rcases h.load now with hload | ⟨fault, hload⟩
    · rw [hload]
      dsimp only
      rw [missOnTreeError_result, hmatches]
      dsimp only
      rw [if_pos hsystem]
      exact ite_self _
    · rw [hload]

theorem checksum_error_of_orderly [FindingTree τ] [AnsweringTree τ] {project : Project}
    {e : Failure} (ht : FindingTree.Orderly t) (h : project.checksum t = .error e) :
    ∃ cause, e = .tree cause ∧ cause.isSystem = true := by
  cases hentries : project.mainEntries t with
  | ok entries =>
    rw [Project.checksum_of_mainEntries ht hentries] at h
    cases h
  | error cause =>
    rw [Project.checksum_eq, hentries] at h
    cases h
    exact ⟨cause, rfl, Project.mainEntries_error hentries⟩

/-- Two states of a tree with other paths, sizes or seconds of sources give other texts. After a
save of the one the cache is not valid in the other, unless two texts have one checksum. -/
theorem edit_noticed [LawfulTree τ] [OverwritingTree τ] [AnsweringTree τ] [FindingTree τ]
    (ht : FindingTree.Orderly t) (ht' : FindingTree.Orderly t')
    (hapart : c.project.Unmistakable t c.project t')
    (hedit : ∃ f, ¬ (c.project.Covers t f ↔ c.project.Covers t' f)) :
    (∀ text text', c.project.sourceText t = .ok text → c.project.sourceText t' = .ok text' →
        text ≠ text') ∧
      ∀ (a : Save τ) (k : String) (now : Timestamp), a.profile.Storable → a.written c = t →
        a.checksum? c = some k → c.SameCache (a.after c).tree t' →
        ¬ c.project.Collide t c.project t' → (c.isValid t' now).result = .ok false := by
  have htexts (text text' : String) (h : c.project.sourceText t = .ok text)
      (h' : c.project.sourceText t' = .ok text') : text ≠ text' := by
    rintro rfl
    obtain ⟨f, hf⟩ := hedit
    exact hf (Project.covers_of_sourceText ht ht' hapart h h' f)
  refine ⟨htexts, ?_⟩
  rintro a k now hp rfl hk hcache hcollide
  have hsaved := hcache.saved (Save.saved hp hk)
  apply hsaved.isValid_false ?_ fun e he => checksum_error_of_orderly ht' he
  intro hcurrent
  exact hcollide (.of_checksum (Save.after_of_sealed hk).2.1 hcurrent htexts)

open MemoryTree

/-- A save of a project in memory, whose source is written again a second after. -/
def plainSave : Save MemoryTree where
  before := { tree := bare plainSource plainTest, clock := 0.0 }
  profile := startProfile

def touchedSource : StoredFile :=
  ⟨plainSource.data, .double 1.0⟩

def touchedTree (k : String) : MemoryTree :=
  cached touchedSource plainTest ⟨plainSave.document, .double 0.0⟩ ⟨k, .double 0.0⟩

theorem closed_of_paths {t t' : MemoryTree} (ht : t.Closed)
    (hfiles : t'.files.map Prod.fst = t.files.map Prod.fst)
    (hdirectories : t'.directories = t.directories) : t'.Closed := by
  have hdirectory (k : Path) : t'.hasDirectory k = t.hasDirectory k := by
    rw [hasDirectory, hdirectories, hasDirectory]
  have hstores {k : Path} (hk : t'.Stores k) : t.Stores k := by
    rcases hk with hfile | hdir
    · rw [hasFile_iff, hfiles, ← hasFile_iff] at hfile
      exact .inl hfile
    · exact .inr ((hdirectory k).symm.trans hdir)
  exact ⟨hfiles ▸ ht.distinct, fun hk => ht.keyed (hstores hk),
    fun {k d} hk hd => (hdirectory d).trans (ht.around (hstores hk) hd)⟩

def plainCalls : List MemoryTree.Call :=
  [.write 0.0 "/src/main/java/A.java" "", .write 0.0 "/src/test/java/ATest.java" "",
    .write 0.0 "/.stackprint/profile.json" ""]

theorem closed_plain (source test profile checksum : StoredFile) :
    (described source test profile).Closed ∧ (cached source test profile checksum).Closed := by
  constructor
  · refine closed_of_paths (closed_run plainCalls) ?_ ?_
    · change (described plainSource plainTest plainTest).files.map Prod.fst = _
      decide +kernel
    · change (described plainSource plainTest plainTest).directories = _
      decide +kernel
  · refine closed_of_paths (closed_run (plainCalls ++ [.write 0.0 "/.stackprint/checksum" ""])) ?_ ?_
    · change (cached plainSource plainTest plainTest plainTest).files.map Prod.fst = _
      decide +kernel
    · change (cached plainSource plainTest plainTest plainTest).directories = _
      decide +kernel

theorem whole_seconds : (Number.double 0.0).Whole ∧ (Number.double 1.0).Whole :=
  ⟨⟨0, by decide +kernel⟩, ⟨1, by decide +kernel⟩⟩

theorem orderly_plain (document k : String) :
    FindingTree.Orderly (described plainSource plainTest ⟨document, .double 0.0⟩) ∧
      FindingTree.Orderly (touchedTree k) := by
  obtain ⟨hdescribed, -⟩ := closed_plain plainSource plainTest ⟨document, .double 0.0⟩ plainTest
  obtain ⟨-, htouched⟩ := closed_plain touchedSource plainTest
    ⟨plainSave.document, .double 0.0⟩ ⟨k, .double 0.0⟩
  obtain ⟨hzero, hone⟩ := whole_seconds
  refine ⟨⟨hdescribed, ?_⟩, htouched, ?_⟩
  · intro f hf
    simp only [described, bare, List.cons_append, List.nil_append, List.mem_cons, List.not_mem_nil,
      or_false] at hf
    rcases hf with rfl | rfl | rfl <;> exact hzero
  · intro f hf
    simp only [touchedTree, cached, bare, List.cons_append, List.nil_append, List.mem_cons,
      List.not_mem_nil, or_false] at hf
    rcases hf with rfl | rfl | rfl | rfl
    · exact hone
    all_goals exact hzero

theorem covers_plain (document k : String) (f : SourceFact) :
    (atRoot.project.Covers (described plainSource plainTest ⟨document, .double 0.0⟩) f ↔
        f ∈ [⟨"src/main/java/A.java", 21, 0⟩]) ∧
      (atRoot.project.Covers (touchedTree k) f ↔ f ∈ [⟨"src/main/java/A.java", 21, 1⟩]) := by
  obtain ⟨hdescribed, htouched⟩ := orderly_plain document k
  obtain ⟨-, -, -, hbefore⟩ := sources_cached plainSource plainTest ⟨document, .double 0.0⟩ plainTest
  obtain ⟨-, -, hafter, -⟩ := sources_cached touchedSource plainTest
    ⟨plainSave.document, .double 0.0⟩ ⟨k, .double 0.0⟩
  rw [Project.covers_iff hdescribed hbefore, Project.covers_iff htouched hafter]
  exact ⟨iff_of_eq (congrArg (f ∈ ·) (by decide +kernel)),
    iff_of_eq (congrArg (f ∈ ·) (by decide +kernel))⟩

theorem edit_noticed_touched :
    ∃ k, plainSave.checksum? atRoot = some k ∧
      atRoot.SameCache (plainSave.after atRoot).tree (touchedTree k) ∧
      ∀ now, (atRoot.isValid (touchedTree k) now).result = .ok false := by
  obtain ⟨k, hk⟩ := hashed_plain
  have hwritable : atRoot.Writable plainSave.before.tree := writable_bare plainSource plainTest
  have hwritten : plainSave.written atRoot =
      described plainSource plainTest ⟨plainSave.document, .double 0.0⟩ := stored_bare _ _ _ _
  have hchecksum : atRoot.project.checksum (plainSave.written atRoot) = .ok k := by
    rw [hwritten, checksum_described, hk]
  obtain ⟨hsome, htree⟩ := Save.checksum?_of_writable hwritable hchecksum
  have hafter : (plainSave.after atRoot).tree =
      cached plainSource plainTest ⟨plainSave.document, .double 0.0⟩ ⟨k, .double 0.0⟩ :=
    htree.trans (sealed_bare _ _ _ _ _)
  have hcache : atRoot.SameCache (plainSave.after atRoot).tree (touchedTree k) := by
    rw [hafter]
    exact sameCache_cached _ _ _ _ _ _
  obtain ⟨hdescribed, htouched⟩ := orderly_plain plainSave.document k
  have hcovers := covers_plain plainSave.document k
  rw [← hwritten] at hdescribed hcovers
  have hapart : atRoot.project.Unmistakable (plainSave.written atRoot) atRoot.project
      (touchedTree k) := by
    intro f f' hf hf'
    rw [(hcovers f).1, List.mem_singleton] at hf
    rw [(hcovers f').2, List.mem_singleton] at hf'
    rw [hf, hf']
    exact ⟨SourceFact.not_mimics (by decide) _, SourceFact.not_mimics (by decide) _⟩
  have hedit : ∃ f, ¬ (atRoot.project.Covers (plainSave.written atRoot) f ↔
      atRoot.project.Covers (touchedTree k) f) := by
    refine ⟨⟨"src/main/java/A.java", 21, 0⟩, ?_⟩
    rw [(hcovers _).1, (hcovers _).2]
    decide
  have hcollide : ¬ atRoot.project.Collide (plainSave.written atRoot) atRoot.project
      (touchedTree k) := by
    intro hcollide
    have hsame := hcollide.checksum_eq
    rw [hwritten, checksum_described, touchedTree, checksum_cached] at hsame
    exact absurd hsame (by decide +kernel)
  refine ⟨k, hsome, hcache, fun now => ?_⟩
  exact (edit_noticed hdescribed htouched hapart hedit).2 plainSave k now
    ⟨rfl, by decide, by decide⟩ rfl hsome hcache hcollide

/-! ### A path that reads like two lines -/

def pairCalls : List MemoryTree.Call :=
  [.write 0 "/src/main/java/A.java" "a", .setModified "/src/main/java/A.java" (.int 7),
    .write 0 "/src/main/java/B.java" "bb", .setModified "/src/main/java/B.java" (.int 7)]

def mimicPath : String :=
  "src/main/java/A.java:1:7\nsrc/main/java/B.java"

/-- The second one of the two sources lies in directories with a line break in their name. -/
def mimicCalls : List MemoryTree.Call :=
  [.write 0 ("/" ++ mimicPath) "bb", .setModified ("/" ++ mimicPath) (.int 7)]

def pairFacts : List SourceFact :=
  [⟨"src/main/java/A.java", 1, 7⟩, ⟨"src/main/java/B.java", 2, 7⟩]

theorem facts_pair :
    (run pairCalls).Orderly ∧
      (∀ f, atRoot.project.Covers (run pairCalls) f ↔ f ∈ pairFacts) ∧
      atRoot.project.sourceText (run pairCalls) = .ok (SourceFact.listing pairFacts) := by
  have horderly : (run pairCalls).Orderly := ⟨closed_run _, timed_of_all (by decide +kernel)⟩
  exact ⟨horderly,
    (Project.facts_in_memory horderly (by decide +kernel) (by decide +kernel)).1,
    Project.sourceText_in_memory horderly (by decide +kernel) (by decide +kernel)⟩

theorem facts_mimic :
    (run mimicCalls).Orderly ∧
      (∀ f, atRoot.project.Covers (run mimicCalls) f ↔ f ∈ [⟨mimicPath, 2, 7⟩]) ∧
      atRoot.project.sourceText (run mimicCalls) =
        .ok (SourceFact.listing [⟨mimicPath, 2, 7⟩]) := by
  have horderly : (run mimicCalls).Orderly := ⟨closed_run _, timed_of_all (by decide +kernel)⟩
  exact ⟨horderly,
    (Project.facts_in_memory horderly (by decide +kernel) (by decide +kernel)).1,
    Project.sourceText_in_memory horderly (by decide +kernel) (by decide +kernel)⟩

/-- One file is taken for two, so that an edit does not show in the text. -/
theorem sourceText_mimic :
    FindingTree.Orderly (run pairCalls) ∧ FindingTree.Orderly (run mimicCalls) ∧
      (∃ f, ¬ (atRoot.project.Covers (run pairCalls) f ↔
        atRoot.project.Covers (run mimicCalls) f)) ∧
      ∃ text, atRoot.project.sourceText (run pairCalls) = .ok text ∧
        atRoot.project.sourceText (run mimicCalls) = .ok text := by
  obtain ⟨hpair, hpaircovers, hpairtext⟩ := facts_pair
  obtain ⟨hmimic, hmimiccovers, hmimictext⟩ := facts_mimic
  refine ⟨hpair, hmimic, ⟨⟨mimicPath, 2, 7⟩, ?_⟩, _, hpairtext, ?_⟩
  · rw [hpaircovers, hmimiccovers]
    decide
  · rw [hmimictext, SourceFact.listing_sorted (by decide +kernel),
      SourceFact.listing_sorted (by decide +kernel)]
    exact congrArg Except.ok (by decide +kernel)

end JavaProfile.Cache
