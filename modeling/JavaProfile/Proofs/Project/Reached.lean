import JavaProfile.Proofs.Tree.Calls
import JavaProfile.Proofs.Tree.FolderInMemory

/-!
Detection in trees that calls have made. All that it can tell apart are the sources beneath the two
roots; those of the tests tell in what a profile says of tests alone.
-/

namespace JavaProfile

namespace MemoryTree

variable {t t' : MemoryTree} {d k : Path} {text : String}

/-! ### The sources beneath a directory -/

/-- The sources beneath a directory with their texts, in the order of their paths. -/
def sourcesBeneath (t : MemoryTree) (d : Path) : List (Path × String) :=
  ((t.sourceFiles.filter fun f => f.1.isBeneath d).mergeSort fun f g => f.1.ordered g.1).map
    fun f => (f.1, f.2.data)

def SameSources (t t' : MemoryTree) (d : Path) : Prop :=
  ∀ k, k.suffix = sourceSuffix → k.isBeneath d = true →
    (t.file? k).map (·.data) = (t'.file? k).map (·.data)

theorem SameSources.of_map
    (h : t.sourceFiles.map (fun f => (f.1, f.2.data)) =
      t'.sourceFiles.map fun f => (f.1, f.2.data)) : t.SameSources t' d := by
  intro k hk _
  have hlookup (files : List (Path × StoredFile)) :
      (files.map fun f => (f.1, f.2.data)).lookup k = (files.lookup k).map (·.data) := by
    induction files with
    | nil => rfl
    | cons f files ih =>
      rw [List.map_cons, List.lookup_cons, List.lookup_cons, ih]
      split <;> rfl
  rw [file?, file?, ← lookup_sourceFiles t hk, ← lookup_sourceFiles t' hk, ← hlookup, h, hlookup]

theorem sourcesBeneath_texts (t : MemoryTree) (d : Path) :
    t.sourcesBeneath d =
      ((t.sourceFiles.map fun f => (f.1, f.2.data)).filter fun f => f.1.isBeneath d).mergeSort
        fun f g => f.1.ordered g.1 := by
  rw [sourcesBeneath, List.filter_map]
  exact List.map_mergeSort fun _ _ _ _ => rfl

namespace Closed

theorem mem_sourcesBeneath (h : t.Closed) :
    (k, text) ∈ t.sourcesBeneath d ↔
      k.suffix = sourceSuffix ∧ k.isBeneath d = true ∧
        (t.file? k).map (·.data) = some text := by
  simp only [sourcesBeneath, sourceFiles, List.mem_map, List.mem_mergeSort, List.mem_filter,
    decide_eq_true_eq, Prod.mk.injEq, Option.map_eq_some_iff]
  constructor
  · rintro ⟨⟨_, f⟩, ⟨⟨hf, hsource⟩, hbeneath⟩, rfl, rfl⟩
    exact ⟨hsource, hbeneath, f, (lookup_eq_some_iff_mem h.distinct).mpr hf, rfl⟩
  · rintro ⟨hsource, hbeneath, f, hf, rfl⟩
    exact ⟨(k, f), ⟨⟨(lookup_eq_some_iff_mem h.distinct).mp hf, hsource⟩, hbeneath⟩, rfl, rfl⟩

theorem sorted_sourcesBeneath (t : MemoryTree) (d : Path) :
    (t.sourcesBeneath d).Pairwise fun f g => f.1.ordered g.1 := by
  rw [sourcesBeneath, List.pairwise_map]
  exact Path.sorted_mergeSort _

theorem nodup_sourcesBeneath (h : t.Closed) (d : Path) :
    ((t.sourcesBeneath d).map Prod.fst).Nodup := by
  rw [sourcesBeneath, List.map_map]
  apply (((List.mergeSort_perm _ _).map _).nodup_iff).mpr
  exact h.distinct.sublist ((List.filter_sublist.trans List.filter_sublist).map _)

theorem sourcesBeneath_eq (h : t.Closed) (h' : t'.Closed) (hsame : t.SameSources t' d) :
    t'.sourcesBeneath d = t.sourcesBeneath d := by
  apply eq_of_sorted_entries Path.ordered (sorted_sourcesBeneath t' d) (sorted_sourcesBeneath t d)
    (h'.nodup_sourcesBeneath d) (h.nodup_sourcesBeneath d)
  · rintro ⟨k, text⟩
    rw [h'.mem_sourcesBeneath, h.mem_sourcesBeneath]
    refine and_congr_right fun hsource => and_congr_right fun hbeneath => ?_
    rw [hsame k hsource hbeneath]
  · rintro ⟨a, _⟩ ha ⟨b, _⟩ hb hab hba
    obtain ⟨x, -, rfl⟩ := Path.isBeneath_iff.mp (h'.mem_sourcesBeneath.mp ha).2.1
    obtain ⟨y, -, rfl⟩ := Path.isBeneath_iff.mp (h'.mem_sourcesBeneath.mp hb).2.1
    rw [Path.ordered_down] at hab hba
    exact congrArg d.down (byNames_antisymm hab hba)

end Closed

theorem Tidy.contents (h : t.Tidy) (hdistinct : (t.files.map Prod.fst).Nodup) (p : Project)
    (set : SourceSet) :
    p.contents t set = .ok ((t.sourcesBeneath (key (p.sourceRoot set).text)).map
      fun f => (f.1, some f.2)) := by
  rw [Project.contents, Project.sourceEntries, isDirectory_eq]
  cases hroot : t.hasDirectory (key (p.sourceRoot set).text) with
  | false =>
    have hnot : key (p.sourceRoot set).text ∉ t.directories := by
      simpa [hasDirectory] using hroot
    have hnone : t.sourcesBeneath (key (p.sourceRoot set).text) = [] := by
      rw [sourcesBeneath, List.filter_eq_nil_iff.mpr, List.mergeSort_nil, List.map_nil]
      intro f hf
      rw [h.not_beneath hnot f hf]
      exact Bool.false_ne_true
    rw [hnone]
    rfl
  | true =>
    dsimp only
    rw [walkSources_eq t hroot, sourcesBeneath, List.map_map]
    refine congrArg Except.ok ((List.map_map ..).trans (List.map_congr_left fun f hf => ?_))
    have hsource := (List.mem_filter.mp (List.mem_mergeSort.mp hf)).1
    have hlookup := (lookup_eq_some_iff_mem hdistinct).mpr (List.mem_filter.mp hsource).1
    change (f.1, (t.read f.1.text).toOption) = _
    rw [read_eq, h.keyed f hsource, hlookup]
    rfl

end MemoryTree

namespace Project

open MemoryTree Work

def filesBeneath (p : Project) (t : MemoryTree) (set : SourceSet) : List SourceFile :=
  (t.sourcesBeneath (key (p.sourceRoot set).text)).map fun f =>
    SourceFile.ofText f.2 f.1.text (set = .test)

theorem filesBeneath_of_sorted {p : Project} {t : MemoryTree} {set : SourceSet}
    (found : List (Path × String))
    (h : (t.sourceFiles.map fun f => (f.1, f.2.data)).filter
      (fun f => f.1.isBeneath (key (p.sourceRoot set).text)) = found)
    (hsorted : found.Pairwise fun f g => f.1.ordered g.1) :
    p.filesBeneath t set = found.map fun f => SourceFile.ofText f.2 f.1.text (set = .test) := by
  rw [filesBeneath, sourcesBeneath_texts, h, List.mergeSort_of_pairwise hsorted]

theorem scan_of_tidy {t : MemoryTree} (h : t.Tidy) (hdistinct : (t.files.map Prod.fst).Nodup)
    (p : Project) : ∃ manifests, ∀ announces, (p.scan t announces).result =
      .ok (Scan.ofFiles (p.filesBeneath t .main) (p.filesBeneath t .test) p.roots manifests) := by
  obtain ⟨manifests, hmanifests⟩ := p.manifests_of_memory t
  refine ⟨manifests, fun announces => ?_⟩
  have hfiles (set : SourceSet) : filesOf set ((t.sourcesBeneath
      (key (p.sourceRoot set).text)).map fun f => (f.1, some f.2)) = p.filesBeneath t set := by
    rw [filesOf, List.filterMap_map, filesBeneath, ← List.filterMap_eq_map]
    rfl
  rw [scan_contents, hmanifests, h.contents hdistinct, h.contents hdistinct, ← hfiles, ← hfiles]
  rfl

variable {p : Project} {calls calls' : List Call}

/-- Where the same main sources lie beneath the root, detection finds the same but for the time and
the tests, and where the same tests do too, the same but for the time. -/
theorem detect_of_sources {s s' : Session MemoryTree} (hs : s.tree = run calls)
    (hs' : s'.tree = run calls')
    (hmain : (run calls).SameSources (run calls') (key (p.sourceRoot .main).text)) :
    ∃ q q', (runs p.detect s).1 = .ok q ∧ (runs p.detect s').1 = .ok q' ∧ q.Alike q' ∧
      ((run calls).SameSources (run calls') (key (p.sourceRoot .test).text) →
        { q with detectedAt := q'.detectedAt } = q') := by
  have hclosed := closed_run calls
  have hclosed' := closed_run calls'
  have hcontents (set : SourceSet)
      (hsame : (run calls).SameSources (run calls') (key (p.sourceRoot set).text)) :
      p.contents (run calls') set = p.contents (run calls) set := by
    rw [hclosed.tidy.contents hclosed.distinct, hclosed'.tidy.contents hclosed'.distinct,
      hclosed.sourcesBeneath_eq hclosed' hsame]
  obtain ⟨q, hq⟩ := (p.scannable_of_memory (run calls)).detected s.now
  obtain ⟨q', hq'⟩ := (p.scannable_of_memory (run calls')).detected s'.now
  have halike := alike_of_contents hq hq' (hcontents .main hmain)
  refine ⟨q, q', ?_, ?_, halike, fun htest => ?_⟩
  · rw [detect_result, hs, hq]
  · rw [detect_result, hs', hq']
  · have htesting := testing_of_contents hq hq' fun set => by
      cases set with
      | main => exact hcontents .main hmain
      | test => exact hcontents .test htest
    unfold Profile.Alike at halike
    rw [← htesting] at halike
    exact halike

theorem detect_of_sources_beside_others :
    let shop : Project := { directory := ⟨.single, ["shop"]⟩ }
    let calls : List Call := [.write 0 "/shop/src/main/java/A.java" "class A {}"]
    let calls' : List Call :=
      [.makeDirectories "/shop/src/test/java", .write 1 "/shop/src/main/java/A.java" "class A {}",
        .write 1 "/shop/pom.xml" "", .write 1 "/shop/.stackprint/profile.json" "{}",
        .setModified "/shop/src/main/java/A.java" (.int 7)]
    (∀ set, (run calls).SameSources (run calls') (key (shop.sourceRoot set).text)) ∧
      ∃ q q', (runs shop.detect { tree := run calls, clock := 0.0 }).1 = .ok q ∧
        (runs shop.detect { tree := run calls', clock := 86400.0 }).1 = .ok q' ∧
        { q with detectedAt := q'.detectedAt } = q' := by
  intro shop calls calls'
  have hsame (d : Path) : (run calls).SameSources (run calls') d := .of_map (by decide +kernel)
  have htree (t : MemoryTree) (now : Float) :
      ({ tree := t, clock := now } : Session MemoryTree).tree = t := rfl
  obtain ⟨q, q', hq, hq', -, heq⟩ :=
    detect_of_sources (htree (run calls) 0.0) (htree (run calls') 86400.0)
      (hsame (key (shop.sourceRoot .main).text))
  exact ⟨fun set => hsame _, q, q', hq, hq', heq (hsame _)⟩

end Project

end JavaProfile
