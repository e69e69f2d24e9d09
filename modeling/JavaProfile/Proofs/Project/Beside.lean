import Mathlib.Data.List.Basic
import Mathlib.Order.Basic
import JavaProfile.Proofs.Project.Contents
import JavaProfile.Proofs.Tree.Names
import JavaProfile.Proofs.Tree.Order
import JavaProfile.Proofs.Tree.Overwriting

/-!
Trees in memory that differ beside their source files. What is written beside source files leaves
the sources of every project alone.
-/

namespace JavaProfile

/-! ### Sorting a part of a list -/

section Sorting

variable {α : Type} {le : α → α → Bool}

theorem append_inj_of_test {p : α → Bool} {xs xs' ys ys' : List α}
    (h : xs ++ ys = xs' ++ ys') (hxs : ∀ x ∈ xs, !p x) (hxs' : ∀ x ∈ xs', !p x)
    (hys : ∀ y ∈ ys, p y) (hys' : ∀ y ∈ ys', p y) : xs = xs' ∧ ys = ys' := by
  have hnone {ys : List α} (hys : ∀ y ∈ ys, p y) : ys.takeWhile (fun x => !p x) = [] := by
    cases ys with
    | nil => rfl
    | cons y ys =>
      rw [List.takeWhile_cons_of_neg]
      simp [hys y List.mem_cons_self]
  have htake := congrArg (List.takeWhile fun x => !p x) h
  rw [List.takeWhile_append_of_pos hxs, List.takeWhile_append_of_pos hxs', hnone hys,
    hnone hys', List.append_nil, List.append_nil] at htake
  subst htake
  exact ⟨rfl, List.append_cancel_left h⟩

/-- Sorting keeps the order of elements that are alike, so what is dropped can be dropped before. -/
theorem filter_mergeSort (trans : ∀ a b c, le a b → le b c → le a c)
    (total : ∀ a b, le a b || le b a) (P : α → Bool) (l : List α) :
    (l.mergeSort le).filter P = (l.filter P).mergeSort le := by
  induction l with
  | nil => simp
  | cons a l ih =>
    obtain ⟨xs, ys, hcons, hl, hxs⟩ := List.mergeSort_cons trans total a l
    rw [hl, List.filter_append] at ih
    rw [hcons, List.filter_append]
    -- Where the first one is kept, it stands behind the same ones in both sorted lists.
    by_cases ha : P a
    · obtain ⟨xs', ys', hcons', hl', hxs'⟩ := List.mergeSort_cons trans total a (l.filter P)
      have hbehind {b : α} {before after : List α} {all : List α}
          (hall : all.mergeSort le = before ++ a :: after) (hb : b ∈ after) : le a b := by
        have hsorted := List.pairwise_mergeSort trans total all
        rw [hall] at hsorted
        exact List.rel_of_pairwise_cons (List.pairwise_append.mp hsorted).2.1 hb
      obtain ⟨hfirst, hlast⟩ := append_inj_of_test (p := le a) (ih.trans hl')
        (fun b hb => hxs b (List.mem_filter.mp hb).1) hxs'
        (fun b hb => hbehind hcons (List.mem_filter.mp hb).1) fun b hb => hbehind hcons' hb
      rw [List.filter_cons_of_pos ha, List.filter_cons_of_pos ha, hcons', hfirst, hlast]
    · rw [List.filter_cons_of_neg ha, List.filter_cons_of_neg ha, ih]

end Sorting

namespace MemoryTree

/-! ### Source files in memory -/

/-- The files that can be sources of a project. -/
def sourceFiles (t : MemoryTree) : List (Path × StoredFile) :=
  t.files.filter fun f => f.1.suffix = sourceSuffix

/-- Source files are known by their own paths, and lie in directories that are there. -/
structure Tidy (t : MemoryTree) : Prop where
  keyed : ∀ f ∈ t.sourceFiles, key f.1.text = f.1
  around : ∀ f ∈ t.sourceFiles, ∀ d ∈ f.1.parents, d ∈ t.directories

/-- A tree with the same source files and perhaps further directories, which hold none of them. -/
structure Beside (t t' : MemoryTree) : Prop where
  sources : t'.sourceFiles = t.sourceFiles
  directories : ∀ d ∈ t.directories, d ∈ t'.directories
  bare : ∀ d ∈ t'.directories, d ∉ t.directories → ∀ f ∈ t.sourceFiles, f.1.isBeneath d = false

variable {t t' t'' : MemoryTree}

theorem Beside.refl (t : MemoryTree) : t.Beside t :=
  ⟨rfl, fun _ hd => hd, fun _ hd hnot => absurd hd hnot⟩

theorem Beside.trans (h : t.Beside t') (h' : t'.Beside t'') : t.Beside t'' where
  sources := h'.sources.trans h.sources
  directories d hd := h'.directories d (h.directories d hd)
  bare d hd hnot f hf := by
    by_cases hbetween : d ∈ t'.directories
    · exact h.bare d hbetween hnot f hf
    · exact h'.bare d hd hbetween f (h.sources ▸ hf)

theorem Beside.tidy (h : t.Beside t') (ht : t.Tidy) : t'.Tidy where
  keyed f hf := ht.keyed f (h.sources ▸ hf)
  around f hf d hd := h.directories d (ht.around f (h.sources ▸ hf) d hd)

theorem Tidy.not_beneath (ht : t.Tidy) {d : Path} (hd : d ∉ t.directories) :
    ∀ f ∈ t.sourceFiles, f.1.isBeneath d = false := by
  intro f hf
  by_contra hbeneath
  exact hd (ht.around f hf d (Path.mem_parents_iff.mpr (by simpa using hbeneath)))

theorem beside_makeDirectories (ht : t.Tidy) (p : String) :
    t.Beside (t.makeDirectories p).1 := by
  have hdirectories : ∀ d ∈ t.directories, d ∈ (t.makeDirectories p).1.directories := by
    intro d hd
    unfold makeDirectories
    dsimp only
    split
    · exact hd
    · exact List.mem_append_right _ hd
  refine ⟨?_, hdirectories, fun d _ hnot => ht.not_beneath hnot⟩
  rw [sourceFiles, makeDirectories_files, sourceFiles]

theorem filter_putFile {k : Path} (hk : k.suffix ≠ sourceSuffix) (files : List (Path × StoredFile))
    (f : StoredFile) :
    (putFile files k f).filter (fun f => f.1.suffix = sourceSuffix) =
      files.filter fun f => f.1.suffix = sourceSuffix := by
  induction files with
  | nil => rw [putFile, List.filter_cons_of_neg (by simpa using hk)]
  | cons g files ih =>
    obtain ⟨k', f'⟩ := g
    rw [putFile]
    split
    · next heq =>
      rw [List.filter_cons_of_neg (by simpa using hk),
        List.filter_cons_of_neg (by simpa [heq] using hk)]
    · rw [List.filter_cons, ih, List.filter_cons]

theorem beside_write (ht : t.Tidy) (now : Float) {p : String}
    (hp : (key p).suffix ≠ sourceSuffix) (data : String) : t.Beside (t.write now p data).1 := by
  unfold write
  split
  · exact .refl t
  · next directory _ =>
    have hbeside := beside_makeDirectories ht directory
    rcases hmake : t.makeDirectories directory with ⟨t', e | ⟨⟩⟩
    · rw [hmake] at hbeside
      exact hbeside
    · rw [hmake] at hbeside
      exact hbeside.trans ⟨filter_putFile hp _ _, fun _ hd => hd, fun _ hd hnot => absurd hd hnot⟩

/-! ### What a project sees of them -/

theorem lookup_sourceFiles (t : MemoryTree) {k : Path} (hk : k.suffix = sourceSuffix) :
    t.sourceFiles.lookup k = t.files.lookup k := by
  have hkeep := lookup_filter (fun k => decide (k.suffix = sourceSuffix)) k t.files
  rw [if_pos (by simpa using hk)] at hkeep
  exact hkeep

theorem walkSources_eq (t : MemoryTree) {root : Path} (h : t.hasDirectory (key root.text) = true) :
    Project.walkSources t root =
      .ok (((t.sourceFiles.filter fun f => f.1.isBeneath (key root.text)).mergeSort
        fun a b => a.1.ordered b.1).map fun f => entry f.1 f.2) := by
  change (t.walk root.text).map (List.filter (·.isSource)) = _
  rw [walk, if_pos h]
  change Except.ok _ = _
  rw [List.filter_map, filter_mergeSort (fun a b c => Path.ordered_trans a.1 b.1 c.1)
    (fun a b => Path.ordered_total a.1 b.1), List.filter_filter, sourceFiles, List.filter_filter]
  congr 4
  funext f
  exact Bool.and_comm _ _

theorem isDirectory_eq (t : MemoryTree) (path : String) :
    FileTree.isDirectory t path = .ok (t.hasDirectory (key path)) :=
  rfl

namespace Beside

variable (h : t.Beside t') (root : Path)

include h

theorem hasDirectory {d : Path} (hd : t.hasDirectory d = true) : t'.hasDirectory d = true := by
  rw [MemoryTree.hasDirectory, List.contains_iff_mem] at hd ⊢
  exact h.directories d hd

theorem walkSources (hroot : t.hasDirectory (key root.text) = true) :
    Project.walkSources t' root = Project.walkSources t root := by
  rw [walkSources_eq t hroot, walkSources_eq t' (h.hasDirectory hroot), h.sources]

theorem walkSources_bare (hroot : t.hasDirectory (key root.text) = false)
    (hroot' : t'.hasDirectory (key root.text) = true) : Project.walkSources t' root = .ok [] := by
  have hnot : key root.text ∉ t.directories := by simpa [MemoryTree.hasDirectory] using hroot
  have hin : key root.text ∈ t'.directories := by simpa [MemoryTree.hasDirectory] using hroot'
  rw [walkSources_eq t' hroot', h.sources, List.filter_eq_nil_iff.mpr, List.mergeSort_nil,
    List.map_nil]
  intro f hf
  rw [h.bare _ hin hnot f hf]
  exact Bool.false_ne_true

theorem sourceEntries : Project.sourceEntries t' root = Project.sourceEntries t root := by
  rw [Project.sourceEntries, Project.sourceEntries, isDirectory_eq, isDirectory_eq]
  cases hroot : t.hasDirectory (key root.text) with
  | true => rw [h.hasDirectory hroot, h.walkSources root hroot]
  | false =>
    cases hroot' : t'.hasDirectory (key root.text) with
    | true =>
      rw [h.walkSources_bare root hroot hroot']
      rfl
    | false => rfl

theorem mainEntries (p : Project) : p.mainEntries t' = p.mainEntries t := by
  rw [Project.mainEntries, Project.mainEntries, isDirectory_eq, isDirectory_eq]
  dsimp only [Except.bind]
  cases hroot : t.hasDirectory (key (p.sourceRoot .main).text) with
  | true => rw [h.hasDirectory hroot, if_pos rfl, if_pos rfl, h.walkSources _ hroot]
  | false =>
    cases hroot' : t'.hasDirectory (key (p.sourceRoot .main).text) with
    | true =>
      rw [if_pos rfl, h.walkSources_bare _ hroot hroot']
      rfl
    | false => rfl

theorem checksum (p : Project) : p.checksum t' = p.checksum t := by
  rw [Project.checksum_eq, Project.checksum_eq, h.mainEntries]

end Beside

theorem mem_sourceEntries {root : Path} {entries : List FileEntry}
    (h : Project.sourceEntries t root = .ok entries) :
    ∀ e ∈ entries, ∃ f ∈ t.sourceFiles, f.1 = e.path := by
  rw [Project.sourceEntries, isDirectory_eq] at h
  cases hroot : t.hasDirectory (key root.text) with
  | false =>
    rw [hroot] at h
    cases h
    intro e he
    cases he
  | true =>
    rw [hroot] at h
    dsimp only at h
    rw [walkSources_eq t hroot] at h
    cases h
    intro e he
    obtain ⟨f, hf, rfl⟩ := List.mem_map.mp he
    exact ⟨f, (List.mem_filter.mp (List.mem_mergeSort.mp hf)).1, rfl⟩

/-- The sources of a project are the same beside other files, and hold the same. -/
theorem Beside.contents (h : t.Beside t') (ht : t.Tidy) (p : Project) (set : SourceSet) :
    p.contents t' set = p.contents t set := by
  rw [Project.contents, Project.contents, h.sourceEntries]
  cases hentries : Project.sourceEntries t (p.sourceRoot set) with
  | error e => rfl
  | ok entries =>
    refine congrArg Except.ok (List.map_congr_left fun e he => ?_)
    obtain ⟨f, hf, hpath⟩ := mem_sourceEntries hentries e he
    have hsource : f.1.suffix = sourceSuffix := by simpa using (List.mem_filter.mp hf).2
    have hread : t'.read e.path.text = t.read e.path.text := by
      rw [read_eq, read_eq, ← hpath, ht.keyed f hf, ← lookup_sourceFiles t' hsource,
        ← lookup_sourceFiles t hsource, h.sources]
    exact congrArg (fun text => (e.path, text.toOption)) hread

end MemoryTree

namespace Project

theorem manifests_of_memory (p : Project) (t : MemoryTree) : ∃ m, p.manifests t = .ok m := by
  have hfile (name : String) : ∃ b, p.hasFile t name = .ok b := ⟨_, rfl⟩
  obtain ⟨maven, hmaven⟩ := hfile "pom.xml"
  obtain ⟨gradle, hgradle⟩ := hfile "build.gradle"
  obtain ⟨script, hscript⟩ := hfile "build.gradle.kts"
  rw [manifests, hmaven, hgradle, hscript]
  cases gradle
  · exact ⟨⟨maven, script⟩, rfl⟩
  · exact ⟨⟨maven, true⟩, rfl⟩

theorem scannable_of_memory (p : Project) (t : MemoryTree) : p.Scannable t where
  manifests := p.manifests_of_memory t
  contents set := by
    rw [contents, sourceEntries, MemoryTree.isDirectory_eq]
    cases hroot : t.hasDirectory (MemoryTree.key (p.sourceRoot set).text) with
    | false => exact ⟨[], rfl⟩
    | true =>
      dsimp only
      rw [MemoryTree.walkSources_eq t hroot]
      exact ⟨_, rfl⟩

end Project

end JavaProfile
