import JavaProfile.Proofs.Architecture.Module
import JavaProfile.Proofs.Project.Sources
import JavaProfile.Proofs.Tree.CallsOnDisk
import JavaProfile.Proofs.Tree.Effects

/-!
What the checksum of a project covers. Each main source counts with its path seen from the project,
its size and the second in which it was written; where those are the same, so is the checksum.
-/

namespace JavaProfile

/-! ### Files beneath a directory -/

/-- Trees of which it is known what files a walk finds. -/
class FindingTree (τ : Type) [FileTree τ] where
  /-- What the tree holds fits together, nothing is held twice, and all times can be counted. -/
  Orderly : τ → Prop
  /-- There is a file beneath the directory to which a path leads. -/
  Finds : τ → String → FileEntry → Prop
  isDirectory_of_finds {t : τ} {root : String} {e : FileEntry} (ht : Orderly t)
    (h : Finds t root e) : FileTree.isDirectory t root = .ok true
  walk_finds {t : τ} {root : String} (ht : Orderly t)
    (h : FileTree.isDirectory t root = .ok true) : ∃ entries,
      FileTree.walk t root = .ok entries ∧ (entries.map (·.path)).Nodup ∧
        ∀ e, e ∈ entries ↔ Finds t root e
  whole_of_finds {t : τ} {root : String} {e : FileEntry} (ht : Orderly t) (h : Finds t root e) :
    e.modified.Whole

namespace MemoryTree

structure Orderly (t : MemoryTree) : Prop extends t.Closed where
  timed : t.Timed

variable {t : MemoryTree} {d : Path}

theorem Lists.nodup {entries : List FileEntry} (h : t.Lists d entries) :
    (entries.map (·.path)).Nodup := by
  rw [List.Nodup, List.pairwise_map]
  apply h.ascending.imp
  intro a b hlt heq
  rw [heq] at hlt
  exact lt_irrefl _ hlt

theorem timed_of_all (h : t.files.all fun f => f.2.modified.truncate.isOk) : t.Timed := by
  intro f hf
  have hok := List.all_eq_true.mp h f hf
  cases hseconds : f.2.modified.truncate with
  | ok seconds => exact ⟨seconds, hseconds⟩
  | error fault =>
    rw [hseconds] at hok
    cases hok

def sourcesUnder (t : MemoryTree) (root : Path) : List FileEntry :=
  ((t.files.filter fun f => f.1.isBeneath root).map fun f => entry f.1 f.2).filter (·.isSource)

instance : FindingTree MemoryTree where
  Orderly := Orderly
  Finds t root e :=
    e.path.isBeneath (key root) = true ∧ ∃ f, t.file? e.path = some f ∧ e = entry e.path f
  isDirectory_of_finds {t root e} ht h := by
    obtain ⟨hbeneath, f, hf, -⟩ := h
    exact congrArg Except.ok (ht.around (.inl (by rw [hasFile, hf]; rfl)) hbeneath)
  walk_finds {t root} ht h := by
    obtain ⟨entries, hwalk, hlists⟩ := ht.walk_lists (Except.ok.inj h)
    exact ⟨entries, hwalk, hlists.nodup, hlists.mem⟩
  whole_of_finds {t root e} ht h := by
    obtain ⟨-, f, hf, he⟩ := h
    rw [he]
    exact ht.timed _ ((lookup_eq_some_iff_mem ht.distinct).mp hf)

end MemoryTree

namespace DiskTree

structure Orderly (t : DiskTree) : Prop extends t.Sound where
  distinct : (t.nodes.map Prod.fst).Nodup
  timed : t.Timed

variable {t : DiskTree} {root : Path} {l : Location}

theorem orderly_run (calls : List Call) {times : List (Location × Number)}
    (h : ∀ f ∈ times, f.2.Whole) : Orderly { run calls with times := times } :=
  let ht := rooted_run calls
  ⟨⟨ht.named, ht.around, ht.here⟩, ht.distinct, h⟩

/-- Beneath the directory to which a path leads lies a file, or a link that leads to one. -/
def Finds (t : DiskTree) (root : Path) (e : FileEntry) : Prop :=
  ∃ l way n place bytes, t.locate .target root = .ok (.taken l .directory) ∧
    t.node? (l ++ way) = some n ∧ n ≠ .directory ∧
    t.locate .target ⟨.single, l ++ way⟩ = .ok (.taken place (.file bytes)) ∧
    e = ⟨root.down way, bytes.length, (t.times.lookup place).getD (.int 0)⟩

theorem ne_nil_of_fileSize? {size : ℕ} (h : t.fileSize? l = some size) : l ≠ [] := by
  rintro rfl
  obtain ⟨place, bytes, hlocate, -⟩ := fileSize?_eq_some.mp h
  have hresolve := (locate_ok hlocate).2.2
  rw [resolve] at hresolve
  cases hresolve

theorem mem_filesBeneath (hdistinct : (t.nodes.map Prod.fst).Nodup) {way : List String}
    {size : ℕ} : (way, size) ∈ t.filesBeneath l ↔
      ∃ n, t.node? (l ++ way) = some n ∧ n ≠ .directory ∧ t.fileSize? (l ++ way) = some size := by
  rw [filesBeneath_found, List.mem_mergeSort, List.mem_filterMap]
  constructor
  · rintro ⟨⟨l', n⟩, hnode, hfound⟩
    obtain ⟨rfl, hn, hsize⟩ := found?_eq_some.mp hfound
    refine ⟨n, ?_, hn, hsize⟩
    rw [node?, if_neg (ne_nil_of_fileSize? hsize)]
    exact (lookup_eq_some_iff_mem hdistinct).mpr hnode
  · rintro ⟨n, hnode, hn, hsize⟩
    have hmem := mem_of_node? (ne_nil_of_fileSize? hsize) hnode
    exact ⟨(l ++ way, n), hmem, found?_eq_some.mpr ⟨rfl, hn, hsize⟩⟩

theorem nodup_filesBeneath (hdistinct : (t.nodes.map Prod.fst).Nodup) (l : Location) :
    ((t.filesBeneath l).map Prod.fst).Nodup :=
  (((List.mergeSort_perm _ _).map _).nodup_iff).mpr (nodup_found hdistinct l)

theorem modified_eq {place : Location} {n : Node}
    (h : t.locate .target ⟨.single, l⟩ = .ok (.taken place n)) :
    t.modified l = (t.times.lookup place).getD (.int 0) := by
  rw [modified, h]

theorem walk_eq (h : t.locate .target root = .ok (.taken l .directory)) :
    t.walk root = .ok ((t.filesBeneath l).map fun f =>
      ⟨root.down f.1, f.2, t.modified (l ++ f.1)⟩) := by
  rw [walk, h]
  rfl

theorem walk_finds (ht : t.Orderly) (h : t.isDirectory root = .ok true) :
    ∃ entries, t.walk root = .ok entries ∧ (entries.map (·.path)).Nodup ∧
      ∀ e, e ∈ entries ↔ t.Finds root e := by
  obtain ⟨l, hlocate⟩ := locate_of_isDirectory h
  refine ⟨_, walk_eq hlocate, ?_, fun e => ?_⟩
  · rw [List.map_map]
    change ((t.filesBeneath l).map (root.down ∘ Prod.fst)).Nodup
    rw [← List.map_map]
    exact (nodup_filesBeneath ht.distinct l).map fun way way' => Path.down_inj.mp
  · rw [List.mem_map]
    constructor
    · rintro ⟨⟨way, size⟩, hfound, rfl⟩
      obtain ⟨n, hnode, hn, hsize⟩ := (mem_filesBeneath ht.distinct).mp hfound
      obtain ⟨place, bytes, hfile, rfl⟩ := fileSize?_eq_some.mp hsize
      exact ⟨l, way, n, place, bytes, hlocate, hnode, hn, hfile, by rw [modified_eq hfile]⟩
    · rintro ⟨l', way, n, place, bytes, hlocate', hnode, hn, hfile, rfl⟩
      rw [hlocate] at hlocate'
      cases hlocate'
      refine ⟨(way, bytes.length), (mem_filesBeneath ht.distinct).mpr
        ⟨n, hnode, hn, fileSize?_eq_some.mpr ⟨place, bytes, hfile, rfl⟩⟩, ?_⟩
      rw [modified_eq hfile]

instance : FindingTree DiskTree where
  Orderly := Orderly
  Finds t root := t.Finds root
  isDirectory_of_finds {t root e} _ h := by
    obtain ⟨l, way, n, place, bytes, hlocate, -⟩ := h
    change t.isDirectory root = _
    rw [isDirectory, find?, hlocate]
    rfl
  walk_finds ht h := walk_finds ht h
  whole_of_finds {t root e} ht h := by
    obtain ⟨l, way, n, place, bytes, -, -, -, hfile, rfl⟩ := h
    rw [← modified_eq hfile]
    exact ht.timed.modified _

end DiskTree

/-! ### What is covered -/

/-- What the checksum covers of a source. -/
structure SourceFact where
  path : String
  size : ℕ
  seconds : ℤ
  deriving DecidableEq, Repr

namespace SourceFact

def line (f : SourceFact) : String :=
  f.path ++ ":" ++ toString f.size ++ ":" ++ toString f.seconds

def listing (facts : List SourceFact) : String :=
  String.intercalate "\n" ((facts.map line).mergeSort fun a b => decide (a ≤ b))

def digest (facts : List SourceFact) : String :=
  Sha256.digest (Text.encode (listing facts))

theorem listing_sorted {facts : List SourceFact}
    (h : (facts.map line).Pairwise fun a b => decide (a ≤ b)) :
    listing facts = String.intercalate "\n" (facts.map line) := by
  rw [listing, List.mergeSort_of_pairwise h]

theorem digest_perm {facts facts' : List SourceFact} (h : facts.Perm facts') :
    digest facts = digest facts' := by
  rw [digest, listing, mergeSort_texts (h.map line), digest, listing]

end SourceFact

def FileEntry.fact (project : Path) (e : FileEntry) : Except Number.Fault SourceFact :=
  e.modified.truncate.map fun seconds => ⟨(e.path.relativeTo project).text, e.size, seconds⟩

theorem toOption_eq_some {ε α : Type} {x : Except ε α} {a : α} :
    x.toOption = some a ↔ x = .ok a := by
  cases x <;> simp [Except.toOption]

variable {e : FileEntry} {f : SourceFact}

theorem FileEntry.line_eq (project : Path) (e : FileEntry) :
    e.line project = (e.fact project).map SourceFact.line := by
  rw [FileEntry.line, FileEntry.fact]
  cases e.modified.truncate <;> rfl

theorem FileEntry.path_of_fact {project : Path} (h : e.fact project = .ok f) :
    f.path = (e.path.relativeTo project).text := by
  rw [FileEntry.fact] at h
  cases hseconds : e.modified.truncate with
  | error fault =>
    rw [hseconds] at h
    cases h
  | ok seconds =>
    rw [hseconds] at h
    cases h
    rfl

theorem FileEntry.exists_fact (project : Path) (h : e.modified.Whole) :
    ∃ f, e.fact project = .ok f := by
  obtain ⟨seconds, hseconds⟩ := h
  rw [FileEntry.fact, hseconds]
  exact ⟨_, rfl⟩

namespace Project

def facts (p : Project) (entries : List FileEntry) : List SourceFact :=
  entries.filterMap fun e => (e.fact p.directory).toOption

theorem mem_facts {p : Project} {entries : List FileEntry} :
    f ∈ p.facts entries ↔ ∃ e ∈ entries, e.fact p.directory = .ok f := by
  simp only [facts, List.mem_filterMap, toOption_eq_some]

theorem listing_facts (p : Project) {entries : List FileEntry}
    (h : ∀ e ∈ entries, ∃ f, e.fact p.directory = .ok f) :
    p.listing entries = .ok (SourceFact.listing (p.facts entries)) := by
  have hlines :
      entries.mapM (·.line p.directory) = .ok ((p.facts entries).map SourceFact.line) := by
    rw [mapM_ok fun e he => ?_, facts, List.map_filterMap]
    · congr 2
      funext e
      rw [FileEntry.line_eq]
      cases e.fact p.directory <;> rfl
    · obtain ⟨f, hf⟩ := h e he
      exact ⟨f.line, by rw [FileEntry.line_eq, hf]; rfl⟩
  rw [listing, hlines]
  rfl

variable {τ τ' : Type} [FileTree τ] [FindingTree τ] [FileTree τ'] [FindingTree τ']
  {p p' : Project} {t : τ} {t' : τ'}

def Finds (p : Project) (t : τ) (e : FileEntry) : Prop :=
  FindingTree.Finds t (p.sourceRoot .main).text e ∧ e.isSource = true

/-- The path seen from the project, the size and the second of one of the main sources. -/
def Covers (p : Project) (t : τ) (f : SourceFact) : Prop :=
  ∃ e, p.Finds t e ∧ e.fact p.directory = .ok f

/-- No two main sources have the same path seen from the project. -/
def Separates (p : Project) (t : τ) : Prop :=
  ∀ e e', p.Finds t e → p.Finds t e' →
    (e.path.relativeTo p.directory).text = (e'.path.relativeTo p.directory).text → e.path = e'.path

/-- Whether there is a directory at the root of the main sources can be found out. -/
def KnowsRoot (p : Project) (t : τ) : Prop :=
  ∃ present, FileTree.isDirectory t (p.sourceRoot .main).text = .ok present

section

omit [FindingTree τ]

theorem knowsRoot_of_mainEntries {entries : List FileEntry} (h : p.mainEntries t = .ok entries) :
    p.KnowsRoot t := by
  rw [mainEntries] at h
  cases hpresent : FileTree.isDirectory t (p.sourceRoot .main).text with
  | error cause =>
    rw [hpresent] at h
    cases h
  | ok present => exact ⟨present, hpresent⟩

theorem knowsRoot_of_checksum {digest : String} (h : p.checksum t = .ok digest) :
    p.KnowsRoot t := by
  rw [checksum_eq] at h
  cases hentries : p.mainEntries t with
  | error cause =>
    rw [hentries] at h
    cases h
  | ok entries => exact knowsRoot_of_mainEntries hentries

end

theorem mainEntries_finds (ht : FindingTree.Orderly t) (hroot : p.KnowsRoot t) : ∃ entries,
    p.mainEntries t = .ok entries ∧ (entries.map (·.path)).Nodup ∧
      ∀ e, e ∈ entries ↔ p.Finds t e := by
  obtain ⟨present, hpresent⟩ := hroot
  rw [mainEntries, hpresent]
  cases present with
  | false =>
    refine ⟨[], rfl, List.nodup_nil, fun e => ?_⟩
    constructor
    · intro he
      cases he
    · rintro ⟨hfinds, -⟩
      cases hpresent.symm.trans (FindingTree.isDirectory_of_finds ht hfinds)
  | true =>
    obtain ⟨entries, hwalk, hnodup, hmem⟩ := FindingTree.walk_finds ht hpresent
    refine ⟨entries.filter (·.isSource), ?_, hnodup.sublist (List.filter_sublist.map _), ?_⟩
    · change walkSources t (p.sourceRoot .main) = _
      rw [walkSources, hwalk]
      rfl
    · intro e
      rw [List.mem_filter, hmem, Finds]

theorem mainEntries_lists {entries : List FileEntry} (ht : FindingTree.Orderly t)
    (h : p.mainEntries t = .ok entries) :
    (entries.map (·.path)).Nodup ∧ ∀ e, e ∈ entries ↔ p.Finds t e := by
  obtain ⟨entries', hentries, hlists⟩ := mainEntries_finds ht (knowsRoot_of_mainEntries h)
  rw [h] at hentries
  cases hentries
  exact hlists

theorem covers_iff {entries : List FileEntry} (ht : FindingTree.Orderly t)
    (h : p.mainEntries t = .ok entries) : p.Covers t f ↔ f ∈ p.facts entries := by
  rw [mem_facts, Covers]
  simp only [(mainEntries_lists ht h).2]

theorem nodup_facts {entries : List FileEntry} (ht : FindingTree.Orderly t)
    (h : p.mainEntries t = .ok entries) (hpaths : p.Separates t) : (p.facts entries).Nodup := by
  obtain ⟨hnodup, hmem⟩ := mainEntries_lists ht h
  rw [← List.map_id (p.facts entries)]
  apply nodup_map_filterMap hnodup
  -- What two entries have in common as facts is their path seen from the project.
  rintro e he e' he' f _ hf hf' rfl
  have hpath := FileEntry.path_of_fact (toOption_eq_some.mp hf)
  have hpath' := FileEntry.path_of_fact (toOption_eq_some.mp hf')
  exact hpaths e e' ((hmem e).mp he) ((hmem e').mp he') (hpath.symm.trans hpath')

theorem checksum_of_mainEntries {entries : List FileEntry} (ht : FindingTree.Orderly t)
    (h : p.mainEntries t = .ok entries) :
    p.checksum t = .ok (SourceFact.digest (p.facts entries)) := by
  have hfacts : ∀ e ∈ entries, ∃ f, e.fact p.directory = .ok f := fun e he =>
    FileEntry.exists_fact _
      (FindingTree.whole_of_finds ht (((mainEntries_lists ht h).2 e).mp he).1)
  rw [checksum_eq, h]
  change ((p.listing entries).mapError Failure.number).map _ = _
  rw [listing_facts p hfacts]
  rfl

section

open MemoryTree

variable {t : MemoryTree}

theorem mainEntries_in_memory (h : t.hasDirectory (key (p.sourceRoot .main).text) = true) :
    ∃ entries, p.mainEntries t = .ok entries ∧
      entries.Perm (t.sourcesUnder (key (p.sourceRoot .main).text)) := by
  refine ⟨_, ?_, ((List.mergeSort_perm _ fun a b => a.1.ordered b.1).map _).filter _⟩
  rw [mainEntries]
  change (Except.ok (t.hasDirectory _)).bind _ = _
  rw [h]
  change (t.walk _).map _ = _
  rw [walk, if_pos h]
  rfl

theorem facts_in_memory {facts : List SourceFact} (ht : t.Orderly)
    (h : t.hasDirectory (key (p.sourceRoot .main).text) = true)
    (hfacts : p.facts (t.sourcesUnder (key (p.sourceRoot .main).text)) = facts) :
    (∀ f, p.Covers t f ↔ f ∈ facts) ∧ p.checksum t = .ok (SourceFact.digest facts) := by
  obtain ⟨entries, hentries, hperm⟩ := mainEntries_in_memory h
  have hsame : (p.facts entries).Perm facts := hfacts ▸ hperm.filterMap _
  refine ⟨fun f => ?_, ?_⟩
  · rw [covers_iff ht hentries, hsame.mem_iff]
  · rw [checksum_of_mainEntries ht hentries, SourceFact.digest_perm hsame]

end

/-! ### Paths seen from a project -/

theorem separates_of_down (top : Path) (h : ∀ e, p.Finds t e → ∃ way, (top.down way).Spelled ∧
    ".." ∉ way ∧ e.path = top.down way) : p.Separates t := by
  intro e e' he he' hpath
  obtain ⟨way, hspelled, hup, heq⟩ := h e he
  obtain ⟨way', hspelled', hup', heq'⟩ := h e' he'
  rw [heq, heq'] at hpath
  rw [heq, heq', Path.down_inj_of_relativeTo hspelled hspelled' hup hup' hpath]

theorem separates_on_disk (p : Project) {t : DiskTree} (ht : t.Orderly) : p.Separates t := by
  refine separates_of_down (Path.ofString (p.sourceRoot .main).text) fun e he => ?_
  obtain ⟨⟨l, way, n, place, bytes, hlocate, hnode, hn, -, rfl⟩, -⟩ := he
  have hmem : (l ++ way, n) ∈ t.nodes := by
    refine DiskTree.mem_of_node? (fun hnil => hn ?_) hnode
    rw [hnil] at hnode
    exact (Option.some.inj hnode).symm
  refine ⟨way, DiskTree.spelled_down ht.toSound (Path.spelled_ofString _) hmem, ?_, rfl⟩
  exact fun hup => (ht.named hmem ".." (List.mem_append_right _ hup)).ne_up rfl

/-- In memory a path that leads outwards counts as beneath all that it leads through, so it may be
found from a root that only leads outwards. -/
theorem separates_in_memory (p : Project) {t : MemoryTree} (ht : t.Closed)
    (hroot : ¬ (MemoryTree.key (p.sourceRoot .main).text).Climbs) : p.Separates t := by
  refine separates_of_down (MemoryTree.key (p.sourceRoot .main).text) fun e he => ?_
  obtain ⟨⟨hbeneath, f, hf, -⟩, -⟩ := he
  have hkey : e.path.IsKey := ht.keyed (.inl (by rw [MemoryTree.hasFile, hf]; rfl))
  obtain ⟨way, -, hpath⟩ := Path.isBeneath_iff.mp hbeneath
  rw [hpath] at hkey
  exact ⟨way, hkey.spelled, hkey.notMem_up hroot, hpath⟩

/-! ### Checksums -/

/-- Where the same is covered, the checksums are the same; they are missing only where it cannot be
found out whether there are sources. -/
theorem checksum_canonical (ht : FindingTree.Orderly t) (ht' : FindingTree.Orderly t')
    (hpaths : p.Separates t) (hpaths' : p'.Separates t')
    (h : ∀ f, p.Covers t f ↔ p'.Covers t' f) :
    (∃ digest, p.checksum t = .ok digest ∧ p'.checksum t' = .ok digest) ↔
      p.KnowsRoot t ∧ p'.KnowsRoot t' := by
  constructor
  · rintro ⟨digest, hdigest, hdigest'⟩
    exact ⟨knowsRoot_of_checksum hdigest, knowsRoot_of_checksum hdigest'⟩
  · rintro ⟨hroot, hroot'⟩
    obtain ⟨entries, hentries, -⟩ := mainEntries_finds ht hroot
    obtain ⟨entries', hentries', -⟩ := mainEntries_finds ht' hroot'
    -- Neither list repeats a fact, so they differ in their order at most, which sorting undoes.
    have hperm : (p.facts entries).Perm (p'.facts entries') := by
      apply (List.perm_ext_iff_of_nodup (nodup_facts ht hentries hpaths)
        (nodup_facts ht' hentries' hpaths')).mpr
      intro f
      rw [← covers_iff ht hentries, h, covers_iff ht' hentries']
    refine ⟨_, checksum_of_mainEntries ht hentries, ?_⟩
    rw [checksum_of_mainEntries ht' hentries', SourceFact.digest_perm hperm]

def withMain (main : String) : Project where
  directory := ⟨.single, []⟩
  roots := { main }

def shopCalls : List MemoryTree.Call :=
  [.write 0 "/shop/web/A.java" "ab", .setModified "/shop/web/A.java" (.int 7),
    .write 0 "/shop/web/notes.txt" "c", .setModified "/shop/web/notes.txt" (.int 8)]

def shop : Project where
  directory := ⟨.single, ["shop"]⟩
  roots := { main := "." }

theorem orderly_shop : (MemoryTree.run shopCalls).Orderly :=
  ⟨MemoryTree.closed_run _, MemoryTree.timed_of_all (by decide +kernel)⟩

/-- A shop on a disk, where the source is a link. -/
def webCalls : List DiskTree.Call :=
  [.makeDirectories "/docs", .writeBytes "/docs/A" [97, 98], .makeDirectories "/web",
    .makeLink "/web/A.java" "../docs/A"]

def webTimes : List (Location × Number) :=
  [(["docs", "A"], .int 7)]

def web : DiskTree :=
  { DiskTree.run webCalls with times := webTimes }

theorem orderly_web : web.Orderly :=
  DiskTree.orderly_run _ (by
    intro f hf
    rw [List.mem_singleton.mp hf]
    exact ⟨7, rfl⟩)

theorem run_webCalls : DiskTree.run webCalls =
    { nodes := [(["web", "A.java"], .link "../docs/A"), (["web"], .directory),
        (["docs", "A"], .file [97, 98]), (["docs"], .directory)] } := by
  cbv

theorem mainEntries_web :
    (withMain "web").mainEntries web = .ok [⟨⟨.single, ["web", "A.java"]⟩, 2, .int 7⟩] := by
  rw [web, run_webCalls]
  cbv

theorem covers_shop (f : SourceFact) :
    shop.Covers (MemoryTree.run shopCalls) f ↔ f ∈ [⟨"web/A.java", 2, 7⟩] :=
  (facts_in_memory orderly_shop (by decide +kernel) (by decide +kernel)).1 f

theorem covers_web (f : SourceFact) :
    (withMain "web").Covers web f ↔ f ∈ [⟨"web/A.java", 2, 7⟩] := by
  rw [covers_iff orderly_web mainEntries_web]
  exact iff_of_eq (congrArg (f ∈ ·) (by decide +kernel))

theorem checksum_canonical_shop :
    (MemoryTree.run shopCalls).Orderly ∧ web.Orderly ∧
      shop.Separates (MemoryTree.run shopCalls) ∧ (withMain "web").Separates web ∧
      (∀ f, shop.Covers (MemoryTree.run shopCalls) f ↔ (withMain "web").Covers web f) ∧
      ∃ digest, shop.checksum (MemoryTree.run shopCalls) = .ok digest ∧
        (withMain "web").checksum web = .ok digest := by
  have hpaths := separates_in_memory shop orderly_shop.toClosed (by decide +kernel)
  have hpaths' := separates_on_disk (withMain "web") orderly_web
  have hsame (f : SourceFact) :
      shop.Covers (MemoryTree.run shopCalls) f ↔ (withMain "web").Covers web f := by
    rw [covers_shop, covers_web]
  refine ⟨orderly_shop, orderly_web, hpaths, hpaths', hsame, ?_⟩
  apply (checksum_canonical orderly_shop orderly_web hpaths hpaths' hsame).mpr
  exact ⟨⟨_, rfl⟩, knowsRoot_of_mainEntries mainEntries_web⟩

/-! ### Sources that count twice -/

def outward : Project where
  directory := ⟨.relative, []⟩
  roots := { main := "." }

def outwardCalls : List MemoryTree.Call :=
  [.write 0 "A.java" "ab", .setModified "A.java" (.int 7)]

/-- The source is named once more by a path that leads outwards. -/
def twiceCalls : List MemoryTree.Call :=
  outwardCalls ++ [.write 0 "../A.java" "ab", .setModified "../A.java" (.int 7)]

theorem facts_outward :
    (∀ f, outward.Covers (MemoryTree.run outwardCalls) f ↔ f ∈ [⟨"A.java", 2, 7⟩]) ∧
      outward.checksum (MemoryTree.run outwardCalls) = .ok (SourceFact.digest [⟨"A.java", 2, 7⟩]) :=
  facts_in_memory ⟨MemoryTree.closed_run _, MemoryTree.timed_of_all (by decide +kernel)⟩
    (by decide +kernel) (by decide +kernel)

theorem facts_twice :
    (∀ f, outward.Covers (MemoryTree.run twiceCalls) f ↔
        f ∈ [⟨"A.java", 2, 7⟩, ⟨"A.java", 2, 7⟩]) ∧
      outward.checksum (MemoryTree.run twiceCalls) =
        .ok (SourceFact.digest [⟨"A.java", 2, 7⟩, ⟨"A.java", 2, 7⟩]) :=
  facts_in_memory ⟨MemoryTree.closed_run _, MemoryTree.timed_of_all (by decide +kernel)⟩
    (by decide +kernel) (by decide +kernel)

/-- Where two sources have the same path seen from the project, both count. -/
theorem checksum_outward :
    (∀ f, outward.Covers (MemoryTree.run outwardCalls) f ↔
        outward.Covers (MemoryTree.run twiceCalls) f) ∧
      outward.checksum (MemoryTree.run outwardCalls) ≠
        outward.checksum (MemoryTree.run twiceCalls) := by
  refine ⟨fun f => ?_, ?_⟩
  · rw [facts_outward.1, facts_twice.1]
    simp
  · rw [facts_outward.2, facts_twice.2, SourceFact.digest,
      SourceFact.listing_sorted (by decide +kernel), SourceFact.digest,
      SourceFact.listing_sorted (by decide +kernel)]
    intro h
    exact absurd (Except.ok.inj h) (by decide +kernel)

/-! ### Names that are too long -/

theorem isDirectory_long (t : DiskTree) {p : Path} {name : String} {rest : List String}
    (hparts : p.parts = name :: rest) (hname : IsName name) (hnul : '\x00' ∉ p.text.toList)
    (hlong : DiskTree.maxNameBytes < name.utf8ByteSize) :
    t.isDirectory p = .error (.system .nameTooLong p.text) := by
  have hresolve (links : ℕ) (l : Location) :
      DiskTree.resolve t .target links l p.parts = .error .nameTooLong := by
    rw [hparts, DiskTree.resolve, if_neg hname.ne_up,
      if_neg (by simp [hname.ne_here, hname.ne_empty]), if_neg (by simp), if_pos hlong]
  have hlocate : t.locate .target p = .error (.system .nameTooLong p.text) := by
    rw [DiskTree.locate, DiskTree.noNul hnul, if_neg Bool.false_ne_true, hresolve]
    exact ite_self _
  rw [DiskTree.isDirectory, DiskTree.find?, hlocate]
  rfl

theorem not_covers_empty (p : Project) (f : SourceFact) : ¬ p.Covers ({} : DiskTree) f := by
  rintro ⟨e, ⟨⟨l, way, n, place, bytes, -, hnode, hn, -⟩, -⟩, -⟩
  rw [DiskTree.node?] at hnode
  split at hnode
  · exact hn (Option.some.inj hnode).symm
  · cases hnode

theorem sourceRoot_withMain {main : String} (h : IsName main) :
    (withMain main).sourceRoot .main = ⟨.single, [main]⟩ := by
  have hnamed : (Path.mk .relative [main]).Named := by simpa [Path.Named] using h
  have htext : (Path.mk .relative [main]).text = main := by
    rw [Path.text, if_neg (by simp), String.intercalate_singleton, Root.text, String.empty_append]
  have hread := hnamed.ofString_text
  rw [htext] at hread
  change (⟨.single, []⟩ : Path) / Path.ofString main = _
  rw [hread]
  rfl

theorem not_knowsRoot (t : DiskTree) {name : String} (hname : IsName name)
    (hnul : '\x00' ∉ name.toList) (hlong : DiskTree.maxNameBytes < name.utf8ByteSize) :
    ¬ (withMain name).KnowsRoot t := by
  rintro ⟨present, hpresent⟩
  have hnamed : (Path.mk .single [name]).Named := by simpa [Path.Named] using hname
  have hnul' : '\x00' ∉ (Path.mk .single [name]).text.toList := by
    rw [Path.text, if_neg (by simp), String.intercalate_singleton, String.toList_append]
    simpa [Root.text] using hnul
  change t.isDirectory (Path.ofString _) = _ at hpresent
  rw [sourceRoot_withMain hname, hnamed.ofString_text,
    isDirectory_long t rfl hname hnul' hlong] at hpresent
  cases hpresent

def nameOfLength (n : ℕ) : String :=
  String.ofList (List.replicate n 'a')

theorem notMem_nameOfLength {n : ℕ} {c : Char} (hc : c ≠ 'a') : c ∉ (nameOfLength n).toList := by
  rw [nameOfLength, String.toList_ofList]
  exact fun h => hc (List.eq_of_mem_replicate h)

theorem isName_nameOfLength {n : ℕ} (hn : 0 < n) : IsName (nameOfLength n) where
  noSeparator := notMem_nameOfLength (by decide)
  ne_empty h := by
    have hlength := congrArg (·.toList.length) h
    simp [nameOfLength, String.toList_ofList] at hlength
    omega
  ne_here h := notMem_nameOfLength (n := n) (c := '.') (by decide) (by rw [h]; decide)
  ne_up h := notMem_nameOfLength (n := n) (c := '.') (by decide) (by rw [h]; decide)

/-- An empty disk has no sources, but that is not found out by a name that is too long. -/
theorem checksum_tooLong :
    FindingTree.Orderly ({} : DiskTree) ∧
      (∀ f, (withMain (nameOfLength 256)).Covers ({} : DiskTree) f ↔
        (withMain "src").Covers ({} : DiskTree) f) ∧
      ¬ ∃ digest, (withMain (nameOfLength 256)).checksum ({} : DiskTree) = .ok digest ∧
        (withMain "src").checksum ({} : DiskTree) = .ok digest := by
  refine ⟨DiskTree.orderly_run [] (by simp), fun f => ?_, ?_⟩
  · rw [iff_false_intro (not_covers_empty _ f), iff_false_intro (not_covers_empty _ f)]
  · rintro ⟨digest, hdigest, -⟩
    exact not_knowsRoot {} (isName_nameOfLength (by decide)) (notMem_nameOfLength (by decide))
      (by decide +kernel) (knowsRoot_of_checksum hdigest)

end Project

end JavaProfile
