import JavaProfile.Proofs.Project.Presented
import JavaProfile.Proofs.Project.Reordered
import JavaProfile.Proofs.Tree.FolderInMemory
import JavaProfile.Proofs.Tree.FolderOnDisk

/-!
One project in memory and on a disk. Its files are scanned by their names in memory, but on a disk
those of a directory are scanned before those of directories in it.
-/

namespace JavaProfile

theorem eq_of_map_eq {α β : Type} {f : α → β} {xs ys : List α} (h : xs.map f = ys.map f)
    (hinj : ∀ x ∈ xs, ∀ y ∈ ys, f x = f y → x = y) : xs = ys := by
  induction xs generalizing ys with
  | nil => exact (List.map_eq_nil_iff.mp h.symm).symm
  | cons x xs ih =>
    cases ys with
    | nil => cases h
    | cons y ys =>
      obtain ⟨hhead, htail⟩ := List.cons.inj h
      rw [hinj x List.mem_cons_self y List.mem_cons_self hhead, ih htail fun a ha b hb =>
        hinj a (List.mem_cons_of_mem _ ha) b (List.mem_cons_of_mem _ hb)]

namespace Project

variable {p : Project} {F : Folder}

/-- In every directory, sources are named before the directories with further sources. -/
def FilesFirst (p : Project) (F : Folder) : Prop :=
  ∀ set, JavaProfile.FilesFirst ((F.sources (p.way set)).map Prod.fst)

theorem sourcesIn_perm (p : Project) (F : Folder)
    (before before' : List String → List String → Bool) (set : SourceSet) :
    (p.sourcesIn F before set).Perm (p.sourcesIn F before' set) :=
  ((List.mergeSort_perm _ _).trans (List.mergeSort_perm _ _).symm).map _

theorem scanIn_reordered (p : Project) (F : Folder)
    (before before' : List String → List String → Bool) :
    (p.scanIn F before).Reordered (p.scanIn F before') where
  mainFiles := p.sourcesIn_perm F before before' .main
  testFiles := p.sourcesIn_perm F before before' .test
  basePackage := Package.base_perm ((p.sourcesIn_perm F before before' .main).map _)
  roots := rfl

theorem sourcesIn_eq_iff (hp : p.Inside) (set : SourceSet) :
    p.sourcesIn F byNames set = p.sourcesIn F DiskTree.comesBefore set ↔
      JavaProfile.FilesFirst ((F.sources (p.way set)).map Prod.fst) := by
  rw [← mergeSort_ways_iff (F.nodup_sources _) (F.sources_apart _)]
  constructor
  · intro heq
    apply eq_of_map_eq heq
    intro f hf g hg hsame
    have hf := List.mem_mergeSort.mp hf
    have hg := List.mem_mergeSort.mp hg
    have hnamed {f : List String × String} (hf : f ∈ F.sources (p.way set)) :
        (p.directory.down (p.way set ++ f.1)).Named :=
      hp.directory.down (F.named _ (Folder.mem_ways_of_source hf))
    have hpath : (p.directory.down (p.way set ++ f.1)).text =
        (p.directory.down (p.way set ++ g.1)).text := congrArg SourceFile.path hsame
    have hway := congrArg Path.ofString hpath
    rw [(hnamed hf).ofString_text, (hnamed hg).ofString_text, Path.down_inj] at hway
    exact List.inj_on_of_nodup_map (F.nodup_sources _) hf hg (List.append_cancel_left hway)
  · intro heq
    rw [sourcesIn, heq, sourcesIn]

theorem scanIn_eq_iff (hp : p.Inside) :
    p.scanIn F byNames = p.scanIn F DiskTree.comesBefore ↔ p.FilesFirst F := by
  constructor
  · rintro heq (_ | _)
    · exact (sourcesIn_eq_iff hp .main).mp (congrArg Scan.mainFiles heq)
    · exact (sourcesIn_eq_iff hp .test).mp (congrArg Scan.testFiles heq)
  · intro h
    rw [scanIn, (sourcesIn_eq_iff hp .main).mpr (h .main),
      (sourcesIn_eq_iff hp .test).mpr (h .test), scanIn]

end Project

section Walks

variable {τ τ' : Type} [FileTree τ] [FileTree τ'] {t : τ} {t' : τ'} {base : Path} {F : Folder}
  (h : Presents t base F byNames) (h' : Presents t' base F DiskTree.comesBefore)

include h h'

theorem Presents.walks {way : List String} (hway : way ∈ F.directories) :
    ∃ entries entries', FileTree.walk t (base.down way).text = .ok entries ∧
      FileTree.walk t' (base.down way).text = .ok entries' ∧
      entries.Pairwise (fun e e' => e.path.ordered e'.path) ∧
      (entries.map fun e => (e.path, e.size)).Perm (entries'.map fun e => (e.path, e.size)) ∧
      ((entries.map fun e => (e.path, e.size)) = (entries'.map fun e => (e.path, e.size)) ↔
        FilesFirst ((F.beneath way).map Prod.fst)) := by
  obtain ⟨entries, hwalk, hentries⟩ := h.walk hway
  obtain ⟨entries', hwalk', hentries'⟩ := h'.walk hway
  refine ⟨entries, entries', hwalk, hwalk', ?_, ?_, ?_⟩
  · apply (List.pairwise_map (R := fun q q' => Path.ordered q q' = true)).mp
    rw [Presents.paths hentries, List.pairwise_map]
    apply (List.pairwise_mergeSort (fun a b c => byNames_trans a.1 b.1 c.1)
      (fun a b => byNames_total a.1 b.1) (F.beneath way)).imp
    intro f g hfg
    rw [← Path.down_down, ← Path.down_down, Path.ordered_down]
    exact hfg
  · rw [hentries, hentries']
    exact ((List.mergeSort_perm _ _).trans (List.mergeSort_perm _ _).symm).map _
  · rw [hentries, hentries', ← mergeSort_ways_iff (F.nodup_beneath way) (F.beneath_apart way)]
    constructor
    · intro heq
      apply eq_of_map_eq heq
      intro f hf g hg hsame
      have hf := List.mem_mergeSort.mp hf
      have hg := List.mem_mergeSort.mp hg
      have hrest := Path.down_inj.mp (congrArg Prod.fst hsame)
      exact List.inj_on_of_nodup_map (F.nodup_beneath way) hf hg (List.append_cancel_left hrest)
    · intro heq
      rw [heq]

end Walks

namespace Project

open Work

theorem agree_on_disk {p : Project} {F : Folder} {m : MemoryTree} {d : DiskTree} {l : Location}
    (hp : p.Inside) (hm : m.Holds p.directory F) (hd : d.Holds p.directory l F) :
    (∀ way ∈ F.directories, ∃ entries entries',
      FileTree.walk m (p.directory.down way).text = .ok entries ∧
      FileTree.walk d (p.directory.down way).text = .ok entries' ∧
      entries.Pairwise (fun e e' => e.path.ordered e'.path) ∧
      (entries.map fun e => (e.path, e.size)).Perm (entries'.map fun e => (e.path, e.size)) ∧
      ((entries.map fun e => (e.path, e.size)) = (entries'.map fun e => (e.path, e.size)) ↔
        JavaProfile.FilesFirst ((F.beneath way).map Prod.fst))) ∧
    (∃ s s', (∀ announces, (p.scan m announces).result = .ok s) ∧
      (∀ announces, (p.scan d announces).result = .ok s') ∧
      s.Reordered s' ∧ s.manifests = s'.manifests ∧ (s = s' ↔ p.FilesFirst F)) ∧
    ∀ (before : Session MemoryTree) (before' : Session DiskTree),
      before.tree = m → before'.tree = d → ∃ q q',
        (runs p.detect before).1 = .ok q ∧ (runs p.detect before').1 = .ok q' ∧
        { q with detectedAt := q'.detectedAt }.SameButOrder q' ∧
        (p.FilesFirst F → { q with detectedAt := q'.detectedAt } = q') := by
  have hpm := hm.presents hp.directory
  have hpd := hd.presents hp.directory
  have hreordered := p.scanIn_reordered F byNames DiskTree.comesBefore
  refine ⟨fun way hway => hpm.walks hpd hway, ⟨p.scanIn F byNames, p.scanIn F DiskTree.comesBefore,
    scan_presented hpm hp, scan_presented hpd hp, hreordered, rfl, scanIn_eq_iff hp⟩, ?_⟩
  intro before before' htree htree'
  refine ⟨_, _, detect_presented hpm hp htree, detect_presented hpd hp htree', ?_, ?_⟩
  · exact hreordered.profile p.directory before'.now
  · intro hfirst
    rw [(scanIn_eq_iff hp).mpr hfirst]
    rfl

/-- A project at the root of a tree. -/
def atRoot : Project where
  directory := ⟨.single, []⟩

theorem atRoot_inside : atRoot.Inside where
  directory := by
    intro part hpart
    cases hpart
  relative set := by cases set <;> decide +kernel
  noUp set := by cases set <;> decide +kernel
  fits set := by cases set <;> decide +kernel
  manifests := by decide +kernel

end Project

/-- A file beside a package, both with names as they are usual. -/
def Folder.shop : Folder where
  files :=
    [(["pom.xml"], "<project/>\n"),
     (["src", "main", "java", "shop", "Order.java"], "package shop;\r\nclass Order \x7b\x7d\r\n"),
     (["src", "main", "java", "shop", "web", "Orders.java"],
      "package shop.web;\nclass Orders \x7b\x7d\n")]
  directories :=
    [[], ["src"], ["src", "main"], ["src", "main", "java"], ["src", "main", "java", "shop"],
     ["src", "main", "java", "shop", "web"]]
  distinct := by decide +kernel
  root := by decide +kernel
  around := by decide +kernel
  apart := by decide +kernel
  named := by decide +kernel

theorem Project.agree_on_disk_shop :
    atRoot.Inside ∧
      (Folder.shop.inMemory ⟨.single, []⟩ (.int 0)).Holds ⟨.single, []⟩ Folder.shop ∧
      Folder.shop.onDisk.Holds ⟨.single, []⟩ [] Folder.shop ∧
      atRoot.FilesFirst Folder.shop ∧
      ∀ (before : Session MemoryTree) (before' : Session DiskTree),
        before.tree = Folder.shop.inMemory ⟨.single, []⟩ (.int 0) →
        before'.tree = Folder.shop.onDisk → ∃ q q',
          (Work.runs atRoot.detect before).1 = .ok q ∧
          (Work.runs atRoot.detect before').1 = .ok q' ∧
          { q with detectedAt := q'.detectedAt } = q' := by
  have hmemory := Folder.shop.holds_inMemory ⟨.single, []⟩ (.int 0)
  have hdisk := Folder.shop.holds_onDisk (by decide +kernel)
  have hfirst : atRoot.FilesFirst Folder.shop := by
    intro set
    apply (filesFirst_iff (Folder.shop.sources_apart _)).mpr
    cases set <;> decide +kernel
  obtain ⟨-, -, hdetect⟩ := agree_on_disk atRoot_inside hmemory hdisk
  refine ⟨atRoot_inside, hmemory, hdisk, hfirst, ?_⟩
  intro before before' htree htree'
  obtain ⟨q, q', hq, hq', -, heq⟩ := hdetect before before' htree htree'
  exact ⟨q, q', hq, hq', heq hfirst⟩

/-- A package with documentation of its own beside one with older documentation. -/
def Folder.documented : Folder where
  files :=
    [(["src", "main", "java", "shop", "api", "Users.java"],
      "package shop.api;\nimport io.swagger.annotations.Api;\n@Api\npublic class Users \x7b\x7d\n"),
     (["src", "main", "java", "shop", "package-info.java"],
      "@Tag(name = \"shop\")\npackage shop;\nimport io.swagger.v3.oas.annotations.tags.Tag;\n")]
  directories :=
    [[], ["src"], ["src", "main"], ["src", "main", "java"], ["src", "main", "java", "shop"],
     ["src", "main", "java", "shop", "api"]]
  distinct := by decide +kernel
  root := by decide +kernel
  around := by decide +kernel
  apart := by decide +kernel
  named := by decide +kernel

namespace Folder

/-- What lies beneath the root of the sources. -/
def documentedSources : List (List String × String) :=
  documented.beneath ["src", "main", "java"]

theorem documented_byNames :
    (documentedSources.mergeSort fun f g => byNames f.1 g.1) = documentedSources :=
  mergeSort_eq (fun f g k => byNames_trans f.1 g.1 k.1) (fun f g => byNames_total f.1 g.1)
    (by decide +kernel) (.refl _) (by decide +kernel)

theorem documented_comesBefore :
    (documentedSources.mergeSort fun f g => DiskTree.comesBefore f.1 g.1) =
      documentedSources.reverse :=
  mergeSort_eq (fun f g k => DiskTree.comesBefore_trans f.1 g.1 k.1)
    (fun f g => DiskTree.comesBefore_total f.1 g.1)
    (by decide +kernel) (List.reverse_perm _) (by decide +kernel)

theorem documented_sources :
    documented.sources (Project.atRoot.way .main) = documentedSources := by
  decide +kernel

end Folder

open Folder

/-- What is named later can come first on a disk, and then a profile is another one. -/
theorem Project.disagree_on_disk :
    atRoot.Inside ∧
      (documented.inMemory ⟨.single, []⟩ (.int 0)).Holds ⟨.single, []⟩ documented ∧
      documented.onDisk.Holds ⟨.single, []⟩ [] documented ∧
      (FileTree.walk (documented.inMemory ⟨.single, []⟩ (.int 0)) "/src/main/java").map
          (·.map (·.path.text)) =
        .ok ["/src/main/java/shop/api/Users.java", "/src/main/java/shop/package-info.java"] ∧
      (FileTree.walk documented.onDisk "/src/main/java").map (·.map (·.path.text)) =
        .ok ["/src/main/java/shop/package-info.java", "/src/main/java/shop/api/Users.java"] ∧
      ∀ (before : Session MemoryTree) (before' : Session DiskTree),
        before.tree = documented.inMemory ⟨.single, []⟩ (.int 0) →
        before'.tree = documented.onDisk → ∃ q q',
          (Work.runs atRoot.detect before).1 = .ok q ∧
          (Work.runs atRoot.detect before').1 = .ok q' ∧
          q.swaggerStyle = .swagger2 ∧ q'.swaggerStyle = .openapi3 := by
  have hmemory := documented.holds_inMemory ⟨.single, []⟩ (.int 0)
  have hdisk := documented.holds_onDisk (by decide +kernel)
  have hpm := hmemory.presents atRoot_inside.directory
  have hpd := hdisk.presents atRoot_inside.directory
  have hway : ["src", "main", "java"] ∈ documented.directories := by decide +kernel
  refine ⟨atRoot_inside, hmemory, hdisk, ?_, ?_, ?_⟩
  · have hwalk := hpm.walk_texts hway
    rw [← documentedSources, documented_byNames] at hwalk
    exact hwalk.trans (congrArg Except.ok (by decide +kernel))
  · have hwalk := hpd.walk_texts hway
    rw [← documentedSources, documented_comesBefore] at hwalk
    exact hwalk.trans (congrArg Except.ok (by decide +kernel))
  · intro before before' htree htree'
    refine ⟨_, _, detect_presented hpm atRoot_inside htree,
      detect_presented hpd atRoot_inside htree', ?_, ?_⟩
    · change (atRoot.scanIn documented byNames).swaggerStyle = _
      rw [scanIn, Scan.ofFiles, Scan.swaggerStyle, sourcesIn, documented_sources,
        documented_byNames]
      decide +kernel
    · change (atRoot.scanIn documented DiskTree.comesBefore).swaggerStyle = _
      rw [scanIn, Scan.ofFiles, Scan.swaggerStyle, sourcesIn, documented_sources,
        documented_comesBefore]
      decide +kernel

end JavaProfile
