import JavaProfile.Proofs.Project.Beside
import JavaProfile.Proofs.Text.Split
import JavaProfile.Proofs.Tree.Folder

/-!
Scanning a project in a tree that presents a folder. The scan depends on the folder, and on the
order in which its files are walked.
-/

namespace JavaProfile

open DiskTree (Fits)
open Folder (mem_beneath)

/-! ### Sources in a folder -/

theorem Text.ReadsAs.lines {written read : String} (h : ReadsAs written read) :
    Text.lines read.toList = Text.lines written.toList := by
  rcases h with rfl | rfl
  · rfl
  · rw [String.toList_ofList, lines_unifyBreaks]

theorem SourceFile.ofText_of_readsAs {written read : String} (h : Text.ReadsAs written read)
    (path : String) (isTest : Bool) : ofText read path isTest = ofText written path isTest := by
  rw [ofText, ofText, Source.readHeader, Source.readHeader, h.lines]

theorem Path.suffix_down (p : Path) {way rest : List String} (hrest : rest ≠ []) :
    (p.down (way ++ rest)).suffix = (Path.mk .relative rest).suffix := by
  rw [suffix, suffix, name, name, down_parts, ← List.append_assoc,
    List.getLast?_append_of_ne_nil _ hrest]

namespace Folder

variable {F : Folder} {way : List String}

/-- The sources beneath a directory. -/
def sources (F : Folder) (way : List String) : List (List String × String) :=
  (F.beneath way).filter fun f => (Path.mk .relative f.1).suffix = sourceSuffix

theorem sources_sublist (F : Folder) (way : List String) :
    ((F.sources way).map Prod.fst).Sublist ((F.beneath way).map Prod.fst) :=
  List.filter_sublist.map _

theorem nodup_sources (F : Folder) (way : List String) : ((F.sources way).map Prod.fst).Nodup :=
  (F.nodup_beneath way).sublist (F.sources_sublist way)

theorem sources_apart (F : Folder) (way : List String) :
    ∀ x ∈ (F.sources way).map Prod.fst, ∀ y ∈ (F.sources way).map Prod.fst, x <+: y → x = y :=
  fun x hx y hy =>
    F.beneath_apart way x ((F.sources_sublist way).subset hx) y ((F.sources_sublist way).subset hy)

theorem mem_ways_of_source {f : List String × String} (hf : f ∈ F.sources way) :
    way ++ f.1 ∈ F.ways :=
  mem_ways_of_file (mem_beneath.mp (List.mem_filter.mp hf).1)

theorem ne_nil_of_beneath (hway : way ∈ F.directories) {f : List String × String}
    (hf : f ∈ F.beneath way) : f.1 ≠ [] := by
  intro hnil
  have hfile := mem_beneath.mp hf
  rw [hnil, List.append_nil] at hfile
  exact F.apart _ hfile hway

theorem sources_eq_nil (hway : way ∉ F.directories) : F.sources way = [] := by
  apply List.filter_eq_nil_iff.mpr
  rintro ⟨rest, text⟩ hf
  by_cases hrest : rest = []
  · have hroot : (Path.mk .relative []).suffix ≠ sourceSuffix := by decide +kernel
    simpa [hrest] using hroot
  · exact absurd (mem_directories_of_file (mem_beneath.mp hf) hrest) hway

/-- The build files in a folder. -/
def manifests (F : Folder) : Manifests where
  maven := (F.node? ["pom.xml"]).isSome
  gradle := (F.node? ["build.gradle"]).isSome || (F.node? ["build.gradle.kts"]).isSome

end Folder

namespace Project

/-- The names on the way from the directory of a project to a root of its sources. -/
def way (p : Project) (set : SourceSet) : List String :=
  (p.roots.ofSet set : Path).parts

def manifestNames : List String := ["pom.xml", "build.gradle", "build.gradle.kts"]

/-- A project whose roots lie in its directory, by paths that lead nowhere up and that a disk
follows. -/
structure Inside (p : Project) : Prop where
  directory : p.directory.Named
  relative (set : SourceSet) : (p.roots.ofSet set : Path).root = .relative
  noUp (set : SourceSet) : ".." ∉ p.way set
  fits (set : SourceSet) : Fits (p.directory.down (p.way set))
  manifests : ∀ name ∈ manifestNames, Fits (p.directory.down [name])

variable {p : Project} {F : Folder} {set : SourceSet}

theorem Inside.sourceRoot (hp : p.Inside) (set : SourceSet) :
    p.sourceRoot set = p.directory.down (p.way set) :=
  if_pos (hp.relative set)

theorem Inside.isName_way (hp : p.Inside) (set : SourceSet) : ∀ name ∈ p.way set, IsName name := by
  intro name hname
  obtain ⟨hpiece, hkept⟩ := List.mem_filter.mp hname
  obtain ⟨cs, hcs, rfl⟩ := List.mem_map.mp hpiece
  simp only [ne_eq, Bool.and_eq_true, decide_eq_true_eq] at hkept
  refine ⟨?_, hkept.1, hkept.2, fun hup => hp.noUp set (hup ▸ hname)⟩
  rw [String.toList_ofList]
  exact Text.notMem_splitOn '/' _ cs hcs

/-- The sources of one kind in a folder, in an order of their ways. -/
def sourcesIn (p : Project) (F : Folder) (before : List String → List String → Bool)
    (set : SourceSet) : List SourceFile :=
  ((F.sources (p.way set)).mergeSort fun f g => before f.1 g.1).map fun f =>
    SourceFile.ofText f.2 (p.directory.down (p.way set ++ f.1)).text (set = .test)

def scanIn (p : Project) (F : Folder) (before : List String → List String → Bool) : Scan :=
  Scan.ofFiles (p.sourcesIn F before .main) (p.sourcesIn F before .test) p.roots F.manifests

/-! ### Scanning a folder -/

/-- The source at a path, unless it cannot be read. -/
def sourceAt {τ : Type} [FileTree τ] (t : τ) (set : SourceSet) (path : Path) : Option SourceFile :=
  (FileTree.read t path.text).toOption.map fun text =>
    SourceFile.ofText text path.text (set = .test)

section Presented

variable {τ : Type} [FileTree τ] {t : τ} {before : List String → List String → Bool}
  (h : Presents t p.directory F before)

include h

theorem hasFile_presented (hp : p.Inside) {name : String} (hname : name ∈ manifestNames) :
    p.hasFile t name = .ok (F.node? [name]).isSome := by
  have hpath : (name : Path) = ⟨.relative, [name]⟩ ∧ IsName name := by
    revert name
    decide +kernel
  have hnames : ∀ n ∈ [name], IsName n := by simpa using hpath.2
  rw [hasFile, hpath.1]
  exact h.contains hnames (hp.manifests name hname)

theorem manifests_presented (hp : p.Inside) : p.manifests t = .ok F.manifests := by
  rw [manifests, hasFile_presented h hp (by simp [manifestNames]),
    hasFile_presented h hp (by simp [manifestNames]),
    hasFile_presented h hp (by simp [manifestNames]), Folder.manifests]
  cases (F.node? ["build.gradle"]).isSome <;> rfl

theorem sourceAt_presented {way rest : List String} {text : String}
    (hfile : (way ++ rest, text) ∈ F.files) (set : SourceSet) :
    sourceAt t set (p.directory.down (way ++ rest)) =
      some (SourceFile.ofText text (p.directory.down (way ++ rest)).text (set = .test)) := by
  obtain ⟨shown, hshown, hreads⟩ := h.read hfile
  rw [sourceAt, hshown, ← SourceFile.ofText_of_readsAs hreads]
  rfl

theorem scanSet_presented (hp : p.Inside) (announces : Bool) (set : SourceSet) :
    (p.scanSet t announces set).result = .ok (p.sourcesIn F before set) := by
  have hdirectory := h.isDirectory (hp.isName_way set) (hp.fits set)
  rw [scanSet_result, sourceEntries, hp.sourceRoot set, hdirectory, sourcesIn]
  by_cases hway : p.way set ∈ F.directories
  · obtain ⟨entries, hwalk, hentries⟩ := h.walk hway
    rw [decide_eq_true hway]
    dsimp only
    rw [walkSources, hwalk]
    refine congrArg Except.ok ?_
    let found := (F.beneath (p.way set)).mergeSort fun f g => before f.1 g.1
    have hmem {f : List String × String} (hf : f ∈ found) : f ∈ F.beneath (p.way set) :=
      List.mem_mergeSort.mp hf
    have hsuffix : ∀ f ∈ found,
        decide ((p.directory.down (p.way set ++ f.1)).suffix = sourceSuffix) =
          decide ((Path.mk .relative f.1).suffix = sourceSuffix) := by
      intro f hf
      rw [Path.suffix_down _ (F.ne_nil_of_beneath hway (hmem hf))]
    have hread : ∀ f ∈ found.filter fun f => (Path.mk .relative f.1).suffix = sourceSuffix,
        sourceAt t set (p.directory.down (p.way set ++ f.1)) =
          some (SourceFile.ofText f.2 (p.directory.down (p.way set ++ f.1)).text (set = .test)) :=
      fun f hf => sourceAt_presented h (mem_beneath.mp (hmem (List.mem_filter.mp hf).1)) set
    -- The order of the walk is that of names, and sorting commutes with picking the sources.
    calc (entries.filter (·.isSource)).filterMap (source? t set)
      _ = ((entries.map (·.path)).filter (·.suffix = sourceSuffix)).filterMap (sourceAt t set) := by
        rw [List.filter_map, List.filterMap_map]
        rfl
      _ = (found.filter fun f => (Path.mk .relative f.1).suffix = sourceSuffix).filterMap
          fun f => sourceAt t set (p.directory.down (p.way set ++ f.1)) := by
        rw [Presents.paths hentries, List.filter_map, List.filterMap_map]
        exact congrArg _ (List.filter_congr hsuffix)
      _ = (found.filter fun f => (Path.mk .relative f.1).suffix = sourceSuffix).map fun f =>
          SourceFile.ofText f.2 (p.directory.down (p.way set ++ f.1)).text (set = .test) := by
        rw [List.filterMap_congr hread, List.filterMap_eq_map']
      _ = _ := by
        rw [filter_mergeSort (fun f g k => h.trans f.1 g.1 k.1) (fun f g => h.total f.1 g.1),
          Folder.sources]
  · rw [decide_eq_false hway, F.sources_eq_nil hway, List.mergeSort_nil]
    rfl

theorem scan_presented (hp : p.Inside) (announces : Bool) :
    (p.scan t announces).result = .ok (p.scanIn F before) := by
  rw [scan_result, manifests_presented h hp, scanSet_presented h hp, scanSet_presented h hp]
  rfl

theorem detect_presented (hp : p.Inside) {s : Session τ} (htree : s.tree = t) :
    (Work.runs p.detect s).1 = .ok ((p.scanIn F before).profile p.directory s.now) := by
  rw [detect_result, detected, htree, scan_presented h hp]
  rfl

end Presented

end Project

end JavaProfile
