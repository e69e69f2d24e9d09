import JavaProfile.Proofs.Tree.Folder

/-!
A folder in a tree in memory, which walks its files in the order of their names.
-/

namespace JavaProfile

open Folder

variable {base : Path} {F : Folder}

theorem Path.ordered_down (p : Path) (x y : List String) :
    (p.down x).ordered (p.down y) = byNames x y := by
  have hkey (way : List String) : (p.down way).orderKey = p.orderKey ++ way := by
    rw [orderKey, orderKey, down_root, down_parts]
    split <;> rfl
  have hlt (c : List String) : c ++ y < c ++ x ↔ y < x := by
    induction c with
    | nil => rfl
    | cons d c ih => simp [ih]
  rw [ordered, byNames, hkey, hkey]
  simp only [hlt]

namespace MemoryTree

/-- A tree that holds a folder in a directory. -/
structure Holds (t : MemoryTree) (base : Path) (F : Folder) : Prop where
  distinct : (t.files.map Prod.fst).Nodup
  file (way : List String) : (t.file? (base.down way)).map (·.data) = F.files.lookup way
  directory (way : List String) : base.down way ∈ t.directories ↔ way ∈ F.directories

namespace Holds

variable {t : MemoryTree} {way : List String} {text : String} (h : t.Holds base F)

include h

theorem file?_iff : (∃ f, t.file? (base.down way) = some f ∧ f.data = text) ↔
    (way, text) ∈ F.files := by
  rw [← lookup_eq_some_iff_mem F.distinct, ← h.file, Option.map_eq_some_iff]

theorem mem_files_iff {k : Path} :
    (∃ f, (k, f) ∈ t.files ∧ k.isBeneath (base.down way) = true ∧ f.data = text) ↔
      ∃ rest, rest ≠ [] ∧ k = base.down (way ++ rest) ∧ (way ++ rest, text) ∈ F.files := by
  simp only [Path.isBeneath_iff, Path.down_down]
  constructor
  · rintro ⟨f, hf, ⟨rest, hrest, rfl⟩, hdata⟩
    refine ⟨rest, hrest, rfl, h.file?_iff.mp ⟨f, ?_, hdata⟩⟩
    exact (lookup_eq_some_iff_mem h.distinct).mpr hf
  · rintro ⟨rest, hrest, rfl, hfile⟩
    obtain ⟨f, hf, hdata⟩ := h.file?_iff.mpr hfile
    exact ⟨f, (lookup_eq_some_iff_mem h.distinct).mp hf, ⟨rest, hrest, rfl⟩, hdata⟩

theorem mem_found_iff (hway : way ∈ F.directories) (x : Path × String) :
    x ∈ ((t.files.filter fun f => f.1.isBeneath (base.down way)).mergeSort
        fun a b => a.1.ordered b.1).map (fun f => (f.1, f.2.data)) ↔
      x ∈ ((F.beneath way).mergeSort fun f g => byNames f.1 g.1).map
        fun f => (base.down (way ++ f.1), f.2) := by
  obtain ⟨k, text⟩ := x
  simp only [List.mem_map, List.mem_mergeSort, List.mem_filter, Prod.mk.injEq]
  constructor
  · rintro ⟨⟨_, f⟩, ⟨hf, hbeneath⟩, rfl, rfl⟩
    obtain ⟨rest, -, hk, hfile⟩ := h.mem_files_iff.mp ⟨f, hf, hbeneath, rfl⟩
    exact ⟨(rest, f.data), mem_beneath.mpr hfile, hk.symm, rfl⟩
  · rintro ⟨⟨rest, _⟩, hrest, rfl, rfl⟩
    have hfile := mem_beneath.mp hrest
    have hne : rest ≠ [] := by
      rintro rfl
      exact F.apart _ hfile (by simpa using hway)
    obtain ⟨f, hf, hbeneath, hdata⟩ := h.mem_files_iff.mpr ⟨rest, hne, rfl, hfile⟩
    exact ⟨(_, f), ⟨hf, hbeneath⟩, rfl, hdata⟩

theorem found_eq (hway : way ∈ F.directories) :
    ((t.files.filter fun f => f.1.isBeneath (base.down way)).mergeSort
        fun a b => a.1.ordered b.1).map (fun f => (f.1, f.2.data)) =
      ((F.beneath way).mergeSort fun f g => byNames f.1 g.1).map
        fun f => (base.down (way ++ f.1), f.2) := by
  have hmem := h.mem_found_iff hway
  -- Two lists are equal that are sorted by one order, repeat nothing and have the same members.
  apply eq_of_sorted_entries Path.ordered
  · rw [List.pairwise_map]
    exact Path.sorted_mergeSort _
  · rw [List.pairwise_map]
    apply (List.pairwise_mergeSort (fun a b c => byNames_trans a.1 b.1 c.1)
      (fun a b => byNames_total a.1 b.1) _).imp
    intro a b hab
    rw [← Path.down_down, ← Path.down_down, Path.ordered_down]
    exact hab
  · rw [List.map_map]
    apply (((List.mergeSort_perm _ _).map _).nodup_iff).mpr
    exact h.distinct.sublist (List.filter_sublist.map _)
  · rw [List.map_map]
    apply (((List.mergeSort_perm _ _).map _).nodup_iff).mpr
    have hinjective : Function.Injective fun rest => base.down (way ++ rest) := by
      intro x y hxy
      exact List.append_cancel_left (Path.down_inj.mp hxy)
    have hnodup := (F.nodup_beneath way).map hinjective
    rwa [List.map_map] at hnodup
  · exact hmem
  · rintro a ha b hb hab hba
    obtain ⟨x, -, rfl⟩ := List.mem_map.mp ((hmem a).mp ha)
    obtain ⟨y, -, rfl⟩ := List.mem_map.mp ((hmem b).mp hb)
    dsimp only at hab hba ⊢
    rw [← Path.down_down, ← Path.down_down, Path.ordered_down] at hab hba
    rw [byNames_antisymm hab hba]

theorem presents (hbase : base.Named) : Presents t base F byNames where
  trans := byNames_trans
  total := byNames_total
  isDirectory {way} hnames _ := by
    change Except.ok (t.hasDirectory _) = _
    rw [(hbase.down hnames).key_text, hasDirectory, List.contains_eq_mem]
    simp only [h.directory]
  contains {way} hnames _ := by
    change Except.ok (t.hasFile _ || t.hasDirectory _) = _
    rw [(hbase.down hnames).key_text, hasFile, hasDirectory, List.contains_eq_mem, node?]
    simp only [h.directory]
    have hfile : (t.file? (base.down way)).isSome = (F.files.lookup way).isSome := by
      rw [← h.file, Option.isSome_map]
    by_cases hway : way ∈ F.directories
    · simp [hway]
    · simp [hway, hfile]
  walk {way} hway := by
    have hnames := F.named _ (mem_ways_of_directory hway)
    have hdirectory : t.hasDirectory (base.down way) = true := by
      rw [hasDirectory, List.contains_iff_mem]
      exact (h.directory way).mpr hway
    change ∃ entries, t.walk _ = .ok entries ∧ _
    rw [walk, (hbase.down hnames).key_text, if_pos hdirectory]
    refine ⟨_, rfl, ?_⟩
    have hfound := congrArg (List.map fun x : Path × String => (x.1, x.2.utf8ByteSize))
      (h.found_eq hway)
    rw [List.map_map, List.map_map] at hfound
    rw [List.map_map]
    exact hfound
  read {way text} hfile := by
    obtain ⟨f, hf, hdata⟩ := h.file?_iff.mpr hfile
    refine ⟨text, ?_, .inl rfl⟩
    change t.read _ = _
    rw [read, (hbase.down (F.named _ (mem_ways_of_file hfile))).key_text, hf]
    exact congrArg Except.ok hdata

end Holds

end MemoryTree

namespace Folder

/-- A tree in memory with a folder in one of its directories, and nothing else. -/
def inMemory (F : Folder) (base : Path) (modified : Number) : MemoryTree where
  files := F.files.map fun f => (base.down f.1, ⟨f.2, modified⟩)
  directories := F.directories.map base.down

theorem holds_inMemory (F : Folder) (base : Path) (modified : Number) :
    (F.inMemory base modified).Holds base F where
  distinct := by
    have hnodup := F.distinct.map fun x y (hxy : base.down x = base.down y) => Path.down_inj.mp hxy
    rw [inMemory, List.map_map]
    rwa [List.map_map] at hnodup
  file way := by
    rw [MemoryTree.file?, inMemory]
    induction F.files with
    | nil => rfl
    | cons f files ih =>
      rw [List.map_cons, List.lookup_cons, List.lookup_cons]
      by_cases hway : way = f.1
      · rw [hway, beq_self_eq_true, beq_self_eq_true]
        rfl
      · rw [beq_eq_false_iff_ne.mpr hway,
          beq_eq_false_iff_ne.mpr fun h => hway (Path.down_inj.mp h)]
        exact ih
  directory way := by
    rw [inMemory, List.mem_map]
    simp only [Path.down_inj, exists_eq_right]

end Folder

end JavaProfile
