import Mathlib.Algebra.BigOperators.Group.List.Basic
import Mathlib.Data.List.Count
import Mathlib.Order.Interval.Set.Defs
import JavaProfile.Proofs.Architecture.Exact
import JavaProfile.Proofs.Package.Name

/-!
Files counted by the packages right below the base package. No file lies in two of them, so the
files of layers and those of feature modules are counted once each, and make up a share of all.
-/

namespace JavaProfile

theorem countP_of_unique {γ : Type} [DecidableEq γ] {keys : List γ} {q : γ → Bool}
    (hnodup : keys.Nodup) (h : ∀ k ∈ keys, ∀ k' ∈ keys, q k → q k' → k = k') :
    keys.countP q = if keys.any q then 1 else 0 := by
  split
  · next hany =>
    obtain ⟨k, hk, hpick⟩ := List.any_eq_true.mp hany
    have hsame : ∀ k' ∈ keys, q k' = true ↔ (k' == k) = true := by
      intro k' hk'
      rw [beq_iff_eq]
      constructor
      · exact fun hpick' => h k' hk' k hk hpick' hpick
      · rintro rfl
        exact hpick
    rw [List.countP_congr hsame, ← List.count_eq_countP, List.count_eq_one_of_mem hnodup hk]
  · next hnone =>
    rw [List.countP_eq_zero]
    intro k hk hpick
    exact hnone (List.any_eq_true.mpr ⟨k, hk, hpick⟩)

namespace Scan

variable {s : Scan} {base package m : String} {names : List String} {f : SourceFile}

/-! ### Packages below the base package -/

theorem mem_within : f ∈ s.within package ↔ f ∈ s.mainFiles ∧ Package.isWithin f.package package :=
  List.mem_filter

theorem length_children (s : Scan) (hnodup : names.Nodup) (hfree : ∀ m ∈ names, '.' ∉ m.toList) :
    (names.flatMap fun m => s.within (Package.child s.basePackage m)).length =
      s.mainFiles.countP fun f =>
        names.any fun m => Package.isWithin f.package (Package.child s.basePackage m) := by
  apply length_flatMap_filter
  intro f _
  apply countP_of_unique hnodup
  intro m hm m' hm' h h'
  exact Package.child_unique (hfree m hm) (hfree m' hm') h h'

theorem share_mem {part total : ℕ} (h : part ≤ total) :
    (share part total : ℚ) ∈ Set.Icc 0 1 := by
  have hle : (part : ℚ) ≤ total := by exact_mod_cast h
  constructor
  · exact div_nonneg part.cast_nonneg total.cast_nonneg
  · exact div_le_one_of_le₀ hle total.cast_nonneg

/-! ### Layers -/

theorem notMem_layer : ∀ l ∈ layerPackages, '.' ∉ l.toList := by
  decide

theorem filesInLayers_eq (s : Scan) : s.filesInLayers = s.mainFiles.countP fun f =>
    layerPackages.any fun l => Package.isWithin f.package (Package.child s.basePackage l) :=
  s.length_children (by decide) notMem_layer

theorem filesInLayers_le (s : Scan) : s.filesInLayers ≤ s.size := by
  rw [filesInLayers_eq]
  exact List.countP_le_length

/-! ### Feature modules -/

theorem moduleOf?_eq_some (hbase : base ≠ "") : moduleOf? base package = some m ↔
    m ∉ layerNames ∧ Package.segments base ++ [m] <+: Package.segments package := by
  rw [prefix_concat_iff, Package.segments_prefix_iff hbase, moduleOf?, segmentBelow?]
  split
  · next hwithin =>
    simp [Option.filter_eq_some_iff, hwithin, and_comm]
  · next hwithin => simp [hwithin]

theorem notMem_module (h : m ∈ s.featureModules) : '.' ∉ m.toList := by
  obtain ⟨hbase, f, -, hmodule⟩ := mem_featureModules.mp h
  rw [moduleOf?_eq_some hbase, prefix_concat_iff] at hmodule
  exact Package.notMem_segments (List.mem_of_getElem? hmodule.2.2)

theorem isWithin_modulePackage (hbase : s.basePackage ≠ "") (hm : '.' ∉ m.toList) :
    Package.isWithin package (s.modulePackage m) ↔
      Package.segments s.basePackage ++ [m] <+: Package.segments package :=
  Package.isWithin_child_segments hbase hm

theorem mem_filesOf (hbase : s.basePackage ≠ "") (hm : '.' ∉ m.toList) :
    f ∈ s.filesOf m ↔ f ∈ s.mainFiles ∧
      Package.segments s.basePackage ++ [m] <+: Package.segments f.package := by
  rw [filesOf, mem_within, isWithin_modulePackage hbase hm]

theorem mem_featureModules_iff (hbase : s.basePackage ≠ "") : m ∈ s.featureModules ↔
    m ∉ layerNames ∧ '.' ∉ m.toList ∧ s.filesOf m ≠ [] := by
  constructor
  · intro hm
    obtain ⟨-, f, hf, hmodule⟩ := mem_featureModules.mp hm
    obtain ⟨hfree, hprefix⟩ := (moduleOf?_eq_some hbase).mp hmodule
    have hpoint := notMem_module hm
    exact ⟨hfree, hpoint, List.ne_nil_of_mem ((mem_filesOf hbase hpoint).mpr ⟨hf, hprefix⟩)⟩
  · rintro ⟨hfree, hpoint, hfiles⟩
    obtain ⟨f, hf⟩ := List.exists_mem_of_ne_nil _ hfiles
    obtain ⟨hmem, hprefix⟩ := (mem_filesOf hbase hpoint).mp hf
    exact mem_featureModules.mpr ⟨hbase, f, hmem, (moduleOf?_eq_some hbase).mpr ⟨hfree, hprefix⟩⟩

theorem moduleOf?_of_isWithin (hm : m ∈ s.featureModules)
    (h : Package.isWithin package (s.modulePackage m)) :
    moduleOf? s.basePackage package = some m := by
  obtain ⟨hbase, -⟩ := mem_featureModules.mp hm
  obtain ⟨hfree, hpoint, -⟩ := (mem_featureModules_iff hbase).mp hm
  exact (moduleOf?_eq_some hbase).mpr ⟨hfree, (isWithin_modulePackage hbase hpoint).mp h⟩

theorem exists_module_iff (hbase : s.basePackage ≠ "") (hf : f ∈ s.mainFiles) :
    (∃ m ∈ s.featureModules, f ∈ s.filesOf m) ↔
      ∃ m ∉ layerNames, Package.segments s.basePackage ++ [m] <+: Package.segments f.package := by
  constructor
  · rintro ⟨m, hm, hfile⟩
    obtain ⟨hfree, hpoint, -⟩ := (mem_featureModules_iff hbase).mp hm
    exact ⟨m, hfree, ((mem_filesOf hbase hpoint).mp hfile).2⟩
  · rintro ⟨m, hfree, hprefix⟩
    have hpoint : '.' ∉ m.toList := Package.notMem_segments (List.IsPrefix.subset hprefix (by simp))
    have hfile := (mem_filesOf hbase hpoint).mpr ⟨hf, hprefix⟩
    exact ⟨m, (mem_featureModules_iff hbase).mpr ⟨hfree, hpoint, List.ne_nil_of_mem hfile⟩, hfile⟩

theorem filesInModules_eq (s : Scan) :
    s.filesInModules s.featureModules = s.mainFiles.countP fun f =>
      s.featureModules.any fun m => Package.isWithin f.package (s.modulePackage m) :=
  s.length_children s.nodup_featureModules fun _ => notMem_module

theorem filesInModules_le (s : Scan) : s.filesInModules s.featureModules ≤ s.size := by
  rw [filesInModules_eq]
  exact List.countP_le_length

theorem flatCount_add_nestedCount (s : Scan) (modules : List String) :
    s.flatCount modules + s.nestedCount modules = s.filesInModules modules := by
  rw [flatCount, nestedCount, filesInModules]
  induction modules with
  | nil => rfl
  | cons m modules ih =>
    have hm := List.length_eq_length_filter_add (l := s.filesOf m)
      fun f => decide (f.package = s.modulePackage m)
    simp only [List.flatMap_cons, List.length_append, ne_eq, decide_not] at ih ⊢
    omega

/-! ### Counts -/

/-- Layers have no files in common, and neither have feature modules, whose files are those with a
first segment below the base package that names no layer. So files are counted once, and the files
of layers and those of modules are shares of all. -/
theorem counts_partition (s : Scan) :
    (∀ l ∈ layerPackages, ∀ l' ∈ layerPackages, ∀ f ∈ s.filesOfLayer l, f ∈ s.filesOfLayer l' →
        l = l') ∧
      (s.filesInLayers = s.mainFiles.countP fun f =>
        layerPackages.any fun l => Package.isWithin f.package (Package.child s.basePackage l)) ∧
      (share s.filesInLayers s.size : ℚ) ∈ Set.Icc 0 1 ∧
    (s.basePackage ≠ "" →
      (∀ m ∈ s.featureModules, s.filesOf m ≠ []) ∧
      (∀ m ∈ s.featureModules, ∀ m' ∈ s.featureModules, ∀ f ∈ s.filesOf m, f ∈ s.filesOf m' →
        m = m') ∧
      (∀ f ∈ s.mainFiles, (∃ m ∈ s.featureModules, f ∈ s.filesOf m) ↔
        ∃ m ∉ layerNames, Package.segments s.basePackage ++ [m] <+: Package.segments f.package) ∧
      s.flatCount s.featureModules + s.nestedCount s.featureModules =
        s.filesInModules s.featureModules ∧
      s.filesInModules s.featureModules ≤ s.size ∧
      (share (s.filesInModules s.featureModules) s.size : ℚ) ∈ Set.Icc 0 1) := by
  refine ⟨?_, s.filesInLayers_eq, share_mem s.filesInLayers_le, fun hbase => ?_⟩
  · intro l hl l' hl' f hf hf'
    exact Package.child_unique (notMem_layer l hl) (notMem_layer l' hl') (mem_within.mp hf).2
      (mem_within.mp hf').2
  · refine ⟨?_, ?_, fun f hf => exists_module_iff hbase hf, s.flatCount_add_nestedCount _,
      s.filesInModules_le, share_mem s.filesInModules_le⟩
    · exact fun m hm => ((mem_featureModules_iff hbase).mp hm).2.2
    · intro m hm m' hm' f hf hf'
      exact Package.child_unique (notMem_module hm) (notMem_module hm') (mem_within.mp hf).2
        (mem_within.mp hf').2

/-- Packages that start alike, and one with an empty segment. -/
def alike : Scan where
  mainFiles := ["shop.", "shop.user", "shop.user.api", "shop.users", "shop.dto.user"].map fun p =>
    { path := p ++ ".java", package := p, className := "" }
  basePackage := "shop"

theorem counts_partition_alike :
    alike.basePackage ≠ "" ∧ alike.featureModules = ["", "user", "users"] ∧
      (∀ f ∈ alike.filesOf "user", f ∉ alike.filesOf "users") ∧
      alike.flatCount alike.featureModules + alike.nestedCount alike.featureModules = 4 ∧
      (share 4 alike.size : ℚ) ∈ Set.Icc 0 1 := by
  have hbase : alike.basePackage ≠ "" := by decide
  have hmodules : alike.featureModules = ["", "user", "users"] :=
    featureModules_of_sorted hbase (by decide +kernel) (by decide +kernel)
  have hfiles : alike.filesInModules alike.featureModules = 4 := by
    rw [hmodules]
    decide +kernel
  obtain ⟨-, -, -, hcounts⟩ := counts_partition alike
  obtain ⟨-, hunique, -, hsum, -, hshare⟩ := hcounts hbase
  rw [hfiles] at hsum hshare
  refine ⟨hbase, hmodules, fun f hf hf' => ?_, hsum, hshare⟩
  have heq := hunique "user" (by rw [hmodules]; decide) "users" (by rw [hmodules]; decide) f hf hf'
  exact absurd heq (by decide)

end Scan

end JavaProfile
