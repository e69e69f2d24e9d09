import Mathlib.Algebra.BigOperators.Group.List.Basic
import Mathlib.Data.List.Count
import JavaProfile.Proofs.Architecture.Decision
import JavaProfile.Proofs.Architecture.Module
import JavaProfile.Proofs.Number.Count
import JavaProfile.Proofs.Profile.Plan

/-!
What is found in a project that was written to a plan. The base package is that of the plan, and the
architecture is the one whose layout the packages have, except that modules of a monolith are taken
for feature modules.
-/

namespace JavaProfile

/-- Files of a plan, each in its package, whatever else is in them. -/
structure Plan.Follows (p : Plan) (s : Scan) : Prop where
  files : (s.mainFiles.map fun f => (f.package, f.category)).Perm p.written
  basePackage : s.basePackage = p.base

theorem Plan.follows_ofFiles (p : Plan) {files : List SourceFile}
    (h : (files.map fun f => (f.package, f.category)).Perm p.written) (tests : List SourceFile)
    (roots : SourceRoots) (manifests : Manifests) :
    p.Follows (.ofFiles files tests roots manifests) where
  files := h
  basePackage := by
    apply p.base_packages
    have hpackages := h.map Prod.fst
    rw [List.map_map] at hpackages
    exact hpackages

/-- The scores of a project with packages of resources. -/
def resourceScore : Architecture → Float
  | .layered => Confidence.percent 30
  | .feature => Confidence.one
  | _ => Confidence.zero

/-- The scores of a project with ports and adapters. -/
def portScore : Architecture → Float
  | .layered => Confidence.percent 30
  | .hexagonal => Confidence.weigh (Scan.share 4 5) Confidence.one (Scan.share 4 5)
  | _ => Confidence.zero

/-- The scores of a project with use cases. -/
def useCaseScore : Architecture → Float
  | .layered => Confidence.percent 30
  | .hexagonal => Confidence.weigh (Scan.share 3 5) Confidence.one (Scan.share 3 5)
  | .clean => Confidence.one
  | _ => Confidence.zero

theorem best_resourceScore : Decision.best resourceScore = .feature := by
  decide +kernel

theorem best_portScore : Decision.best portScore = .hexagonal := by
  decide +kernel

theorem best_useCaseScore : Decision.best useCaseScore = .clean := by
  decide +kernel

namespace Plan.Follows

variable {p : Plan} {s : Scan} {r m part : String} {f : SourceFile} {c : Category} (h : p.Follows s)

include h

theorem exists_resource (hf : f ∈ s.mainFiles) :
    ∃ r ∈ p.resources, ∃ c ∈ plannedLayers, f.package = p.package r c ∧ f.category = c := by
  have hmem := List.mem_map_of_mem (f := fun f : SourceFile => (f.package, f.category)) hf
  obtain ⟨r, hr, c, hc, heq⟩ := mem_written.mp (h.files.mem_iff.mp hmem)
  exact ⟨r, hr, c, hc, congrArg Prod.fst heq, congrArg Prod.snd heq⟩

theorem exists_file (hr : r ∈ p.resources) (hc : c ∈ plannedLayers) :
    ∃ f ∈ s.mainFiles, f.package = p.package r c ∧ f.category = c := by
  have hmem := h.files.mem_iff.mpr (mem_written.mpr ⟨r, hr, c, hc, rfl⟩)
  obtain ⟨f, hf, heq⟩ := List.mem_map.mp hmem
  exact ⟨f, hf, congrArg Prod.fst heq, congrArg Prod.snd heq⟩

theorem size : s.size = 6 * p.resources.length := by
  rw [Scan.size, ← p.length_written, ← h.files.length_eq, List.length_map]

theorem size_large : 12 ≤ s.size := by
  have hseveral := p.several
  rw [h.size]
  omega

theorem pieces_package (hf : f ∈ s.mainFiles) :
    ∃ r ∈ p.resources, ∃ c ∈ plannedLayers,
      Package.pieces f.package = Package.pieces s.basePackage ++ p.below r c ∧ f.category = c := by
  obtain ⟨r, hr, c, hc, hpackage, hcategory⟩ := h.exists_resource hf
  rw [hpackage, h.basePackage]
  exact ⟨r, hr, c, hc, Plan.pieces_package hr c, hcategory⟩

/-! ### Parts of styles in package names -/

theorem mem_packages {name : String} :
    name ∈ s.packages ↔ ∃ r ∈ p.resources, ∃ c ∈ plannedLayers, name = p.package r c := by
  rw [Scan.packages, List.mem_eraseDups, List.mem_filter, List.mem_map]
  constructor
  · rintro ⟨⟨f, hf, rfl⟩, -⟩
    obtain ⟨r, hr, c, hc, hpackage, -⟩ := h.exists_resource hf
    exact ⟨r, hr, c, hc, hpackage⟩
  · rintro ⟨r, hr, c, hc, rfl⟩
    obtain ⟨f, hf, hpackage, -⟩ := h.exists_file hr hc
    refine ⟨⟨f, hf, hpackage⟩, ?_⟩
    simpa using Plan.package_ne hr c

theorem partsFound {parts : List String} (hparts : parts ⊆ Scan.layerNames) :
    s.partsFound parts = layoutParts p.architecture p.style parts := by
  rw [Scan.partsFound, layoutParts]
  apply List.countP_congr
  intro part hpart
  simp only [List.any_eq_true, List.contains_iff_mem]
  constructor
  · rintro ⟨name, hname, hsegment⟩
    obtain ⟨r, hr, c, hc, rfl⟩ := h.mem_packages.mp hname
    exact ⟨c, hc, (Plan.hasSegment_package hr (hparts hpart) c).mp hsegment⟩
  · rintro ⟨c, hc, hmem⟩
    obtain ⟨r, hr, -⟩ := p.exists_resources
    exact ⟨_, h.mem_packages.mpr ⟨r, hr, c, hc, rfl⟩,
      (Plan.hasSegment_package hr (hparts hpart) c).mpr hmem⟩

/-! ### Packages right below the base package -/

/-- Where no layer has a package right below the base package, only the number of files speaks for
layers. -/
theorem layeredScore_bare (hbare : ∀ r ∈ p.resources, ∀ c ∈ plannedLayers,
    ∀ l ∈ Scan.layerPackages, (p.below r c).head? ≠ some l) :
    (s.layeredScore : Float) = Confidence.percent 30 := by
  have hlayer : ∀ l ∈ Scan.layerPackages, s.filesOfLayer l = [] := by
    intro l hl
    have hfree : '.' ∉ l.toList := by
      revert l
      decide
    rw [Scan.filesOfLayer, Scan.within, List.filter_eq_nil_iff]
    intro f hf hwithin
    obtain ⟨r, hr, c, hc, hpackage, -⟩ := h.exists_resource hf
    rw [hpackage, h.basePackage, Plan.isWithin_child hr c hfree] at hwithin
    exact hbare r hr c hc l hl hwithin
  have hfound : s.layersFound = 0 := by
    rw [Scan.layersFound, List.countP_eq_zero]
    intro l hl
    simp [hlayer l hl]
  have hfiles : s.filesInLayers = 0 := by
    rw [Scan.filesInLayers, List.length_eq_zero_iff, List.flatMap_eq_nil_iff]
    exact hlayer
  have hlarge := h.size_large
  have hshare : (Scan.share 0 s.size : Float) = 0.0 :=
    zero_div_eq (atLeast_natCast (show s.size ≠ 0 by omega))
  rw [Scan.layeredScore, if_neg (by omega), Scan.layerCoverage, hfound, hfiles, hshare,
    Confidence.ofSignal, Confidence.sampleShare_full (by omega)]
  decide +kernel

theorem flatScore : (s.flatScore : Float) = Confidence.zero := by
  obtain ⟨names, hlength, hnodup, hnames⟩ := p.exists_packages
  have hsubset : names ⊆ s.packages := fun n hn => h.mem_packages.mpr (hnames n hn)
  have hthree : 2 < s.packages.length := by
    have hle := (hnodup.subperm hsubset).length_le
    omega
  rw [Scan.flatScore, if_pos (.inr hthree)]

/-! ### Feature modules -/

theorem countP_dto : s.mainFiles.countP (·.category = .dto) = p.resources.length := by
  have hcount := h.files.countP_eq fun x => decide (x.2 = Category.dto)
  have hone (r : String) : (plannedLayers.map fun c => (p.package r c, c)).countP
      (fun x => decide (x.2 = Category.dto)) = 1 := by
    rw [List.countP_map]
    rfl
  rw [List.countP_map, written, List.countP_flatMap] at hcount
  simp only [Function.comp_def, hone, List.map_const', List.sum_replicate_nat,
    Nat.mul_one] at hcount
  exact hcount

section Modules

variable (hres : p.architecture = .feature ∨ p.architecture = .modular)

include hres

theorem featureModules : s.featureModules.Perm (p.resources.map resourceSegment) := by
  apply (List.perm_ext_iff_of_nodup s.nodup_featureModules p.distinct).mpr
  intro m
  rw [Scan.mem_featureModules, List.mem_map, h.basePackage]
  constructor
  · rintro ⟨-, f, hf, hm⟩
    obtain ⟨r, hr, c, hc, hpackage, -⟩ := h.exists_resource hf
    rw [hpackage, Plan.moduleOf?_resource hres hr c] at hm
    exact ⟨r, hr, Option.some.inj hm⟩
  · rintro ⟨r, hr, rfl⟩
    obtain ⟨f, hf, hpackage, -⟩ := h.exists_file hr (show .controller ∈ plannedLayers by decide)
    refine ⟨p.base_ne, f, hf, ?_⟩
    rw [hpackage, Plan.moduleOf?_resource hres hr]

theorem mem_featureModules : m ∈ s.featureModules ↔ ∃ r ∈ p.resources, resourceSegment r = m := by
  rw [(h.featureModules hres).mem_iff, List.mem_map]

theorem isWithin_module (hr : r ∈ p.resources) (hm : m ∈ s.featureModules) (c : Category) :
    Package.isWithin (p.package r c) (s.modulePackage m) ↔ m = resourceSegment r := by
  obtain ⟨r', hr', rfl⟩ := (h.mem_featureModules hres).mp hm
  obtain ⟨ps, hps, -⟩ := Plan.below_of_resource hres r c
  rw [Scan.modulePackage, h.basePackage, Plan.isWithin_child hr c (p.single hres r' hr'), hps]
  simp [eq_comm]

theorem length_modules {q : String → SourceFile → Bool} {P : SourceFile → Bool}
    (hq : ∀ f ∈ s.mainFiles, ∀ r ∈ p.resources, ∀ c ∈ plannedLayers, f.package = p.package r c →
      f.category = c → q (resourceSegment r) f = P f) :
    (s.featureModules.flatMap fun m => (s.filesOf m).filter (q m)).length =
      s.mainFiles.countP P := by
  simp only [Scan.filesOf, Scan.within, List.filter_filter]
  apply length_flatMap_filter
  intro f hf
  obtain ⟨r, hr, c, hc, hpackage, hcategory⟩ := h.exists_resource hf
  have hmodule : resourceSegment r ∈ s.featureModules :=
    (h.mem_featureModules hres).mpr ⟨r, hr, rfl⟩
  have hpick : ∀ m ∈ s.featureModules,
      (q m f && Package.isWithin f.package (s.modulePackage m)) = true ↔
        (m == resourceSegment r && P f) = true := by
    intro m hm
    rw [Bool.and_eq_true, Bool.and_eq_true, beq_iff_eq, hpackage, h.isWithin_module hres hr hm,
      and_comm]
    apply and_congr_right
    rintro rfl
    rw [hq f hf r hr c hc hpackage hcategory]
  rw [List.countP_congr hpick]
  cases P f with
  | true => simp [← List.count_eq_countP, List.count_eq_one_of_mem s.nodup_featureModules hmodule]
  | false => simp

theorem filesInModules : s.filesInModules s.featureModules = s.size := by
  have hall := h.length_modules hres (q := fun _ _ => true) (P := fun _ => true)
    fun _ _ _ _ _ _ _ _ => rfl
  simp only [List.filter_true, List.countP_true] at hall
  exact hall

theorem isDiverse (hm : m ∈ s.featureModules) : s.isDiverse m := by
  obtain ⟨r, hr, rfl⟩ := (h.mem_featureModules hres).mp hm
  have hsubset : [Category.controller, .service] ⊆
      ((s.filesOf (resourceSegment r)).map (·.category)).eraseDups := by
    intro c hc
    have hplanned : c ∈ plannedLayers := (show [Category.controller, .service] ⊆ plannedLayers by
      decide) hc
    obtain ⟨f, hf, hpackage, hcategory⟩ := h.exists_file hr hplanned
    rw [List.mem_eraseDups, List.mem_map]
    refine ⟨f, List.mem_filter.mpr ⟨hf, ?_⟩, hcategory⟩
    rw [hpackage]
    exact (h.isWithin_module hres hr hm c).mpr rfl
  have hle := ((show [Category.controller, .service].Nodup by decide).subperm hsubset).length_le
  exact decide_eq_true hle

theorem hasCommon : s.hasCommon = false := by
  rw [Scan.hasCommon, List.any_eq_false]
  intro f hf hwithin
  obtain ⟨r, hr, c, -, hpackage, -⟩ := h.exists_resource hf
  obtain ⟨ps, hps, -⟩ := Plan.below_of_resource hres r c
  rw [hpackage, h.basePackage, Plan.isWithin_child hr c (by decide), hps] at hwithin
  exact p.resource_free r hr (Option.some.inj hwithin ▸ by decide)

theorem featureScore : (s.featureScore : Float) = Confidence.one := by
  have hlength := (h.featureModules hres).length_eq
  have hseveral := p.several
  have hlarge := h.size_large
  rw [List.length_map] at hlength
  have hbase : s.basePackage ≠ "" := by
    rw [h.basePackage]
    exact p.base_ne
  have hdiverse : s.featureModules.countP s.isDiverse = s.featureModules.length :=
    List.countP_eq_length.mpr fun m hm => h.isDiverse hres hm
  have hmodules := div_self_eq (atLeast_natCast (show s.featureModules.length ≠ 0 by omega))
  have hfiles := div_self_eq (atLeast_natCast (show s.size ≠ 0 by omega))
  rw [Scan.featureScore]
  dsimp only
  rw [if_neg (not_or.mpr ⟨hbase, by omega⟩), hdiverse, h.filesInModules hres, h.hasCommon hres,
    Confidence.ofStyle, if_neg (by omega), Confidence.ofSignal, Confidence.sampleShare_full (by omega),
    Scan.share, Scan.share]
  rcases hmodules with hmodules | hmodules <;> rcases hfiles with hfiles | hfiles <;>
    rw [hmodules, hfiles] <;> decide +kernel

theorem package_eq_modulePackage (hr : r ∈ p.resources) (c : Category) :
    p.package r c = s.modulePackage (resourceSegment r) ↔ p.below r c = [resourceSegment r] := by
  rw [← Package.pieces_injective.eq_iff, Plan.pieces_package hr, Scan.modulePackage, h.basePackage,
    Package.pieces_child p.base_ne (p.single hres r hr), List.append_cancel_left_eq]

theorem flatCount : s.flatCount s.featureModules =
    if p.architecture = .feature ∧ p.style = some .flat then 5 * p.resources.length else 0 := by
  rw [Scan.flatCount, h.length_modules hres (P := fun f =>
    (p.architecture = .feature ∧ p.style = some .flat) ∧ f.category ≠ .dto)]
  · split
    · next hflat =>
      have hlength : s.mainFiles.length = _ :=
        List.length_eq_countP_add_countP fun f => decide (f.category = .dto)
      have hsize := h.size
      rw [Scan.size] at hsize
      rw [h.countP_dto] at hlength
      simp only [hflat, and_self, true_and, decide_not, decide_eq_true_eq] at hlength ⊢
      omega
    · next hflat => simp [hflat]
  · intro f hf r hr c hc hpackage hcategory
    rw [hpackage, hcategory, decide_eq_decide, h.package_eq_modulePackage hres hr,
      Plan.below_eq_singleton hres]

theorem nestedCount (hflat : p.architecture = .feature ∧ p.style = some .flat) :
    s.nestedCount s.featureModules = p.resources.length := by
  rw [Scan.nestedCount, h.length_modules hres (P := fun f => f.category = .dto), h.countP_dto]
  intro f hf r hr c hc hpackage hcategory
  rw [hpackage, hcategory, decide_eq_decide, ne_eq, h.package_eq_modulePackage hres hr,
    Plan.below_eq_singleton hres, and_iff_right hflat, not_not]

theorem featureStyle : s.featureStyle s.featureModules =
    if p.architecture = .feature ∧ p.style = some .flat then .flat else .nested := by
  have hseveral := p.several
  rw [Scan.featureStyle, h.flatCount hres]
  split
  · next hflat =>
    rw [h.nestedCount hres hflat, if_pos (by omega)]
  · rw [if_neg (by omega)]

end Modules

/-! ### Scores and the style chosen -/

theorem featureScore_of_layer (hlayer : ¬(p.architecture = .feature ∨ p.architecture = .modular)) :
    (s.featureScore : Float) = Confidence.zero := by
  have hmodules : s.featureModules = [] := by
    rw [List.eq_nil_iff_forall_not_mem]
    intro m hm
    obtain ⟨-, f, hf, hmodule⟩ := Scan.mem_featureModules.mp hm
    obtain ⟨r, hr, c, hc, hpackage, -⟩ := h.exists_resource hf
    obtain ⟨l, hl, hhead⟩ := head_layout hlayer c hc
    rw [hpackage, h.basePackage, Plan.moduleOf?_package hr, Plan.below_of_layer hlayer,
      hhead] at hmodule
    have hfree : l = m ∧ m ∉ Scan.layerNames := by simpa using hmodule
    exact hfree.2 (hfree.1 ▸ hl)
  rw [Scan.featureScore]
  dsimp only
  rw [if_pos (.inr (by simp [hmodules]))]

theorem modularScore : (s.modularScore : Float) = Confidence.zero := by
  rw [Scan.modularScore, h.partsFound (by decide), if_pos (layoutParts_modular _ _)]

theorem cleanScore (ha : p.architecture ≠ .clean) : (s.cleanScore : Float) = Confidence.zero := by
  rw [Scan.cleanScore, h.partsFound (by decide)]
  dsimp only
  rw [if_pos (layoutParts_clean ha _)]

theorem hexagonalScore (ha : p.architecture ≠ .hexagonal) (ha' : p.architecture ≠ .clean) :
    (s.hexagonalScore : Float) = Confidence.zero := by
  rw [Scan.hexagonalScore, h.partsFound (by decide)]
  dsimp only
  rw [if_pos (layoutParts_hexagonal ha ha' _)]

theorem hexagonalScore_of_parts {n : ℕ} (hn : 2 ≤ n)
    (hparts : layoutParts p.architecture p.style Scan.hexagonalParts = n) :
    (s.hexagonalScore : Float) =
      Confidence.weigh (Scan.share n 5) Confidence.one (Scan.share n 5) := by
  have hlarge := h.size_large
  rw [Scan.hexagonalScore, h.partsFound (by decide), hparts]
  dsimp only
  rw [if_neg (by omega), Confidence.ofSignal, Confidence.sampleShare_full (by omega)]
  rfl

theorem layeredScore_of_resource (hres : p.architecture = .feature ∨ p.architecture = .modular) :
    (s.layeredScore : Float) = Confidence.percent 30 := by
  have hlayers : Scan.layerPackages ⊆ Scan.layerNames := by decide
  apply h.layeredScore_bare
  intro r hr c hc l hl heq
  obtain ⟨ps, hps, -⟩ := Plan.below_of_resource hres r c
  rw [hps] at heq
  exact p.resource_free r hr (Option.some.inj heq ▸ hlayers hl)

theorem layeredScore_of_parts (hparts : p.architecture = .hexagonal ∨ p.architecture = .clean) :
    (s.layeredScore : Float) = Confidence.percent 30 := by
  have hlayer : ¬(p.architecture = .feature ∨ p.architecture = .modular) := by
    rcases hparts with heq | heq <;> simp [heq]
  apply h.layeredScore_bare
  intro r hr c hc l hl
  rw [Plan.below_of_layer hlayer]
  exact head_layout_bare hparts c hc l hl

theorem cleanScore_of_clean (ha : p.architecture = .clean) :
    (s.cleanScore : Float) = Confidence.one := by
  have hspecific : layoutParts .clean p.style Scan.cleanParts = 2 := by rfl
  have hsupport : layoutParts .clean p.style Scan.cleanSupport = 3 := by rfl
  have hlarge := h.size_large
  rw [Scan.cleanScore, h.partsFound (by decide), h.partsFound (by decide), ha, hspecific, hsupport]
  dsimp only
  rw [if_neg (by decide), Confidence.ofSignal, Confidence.sampleShare_full (by omega)]
  decide +kernel

theorem score_of_resource (hres : p.architecture = .feature ∨ p.architecture = .modular)
    (b : Architecture) : s.score b = resourceScore b := by
  have hhexagonal : p.architecture ≠ .hexagonal := by rcases hres with heq | heq <;> simp [heq]
  have hclean : p.architecture ≠ .clean := by rcases hres with heq | heq <;> simp [heq]
  cases b with
  | layered => exact h.layeredScore_of_resource hres
  | feature => exact h.featureScore hres
  | hexagonal => exact h.hexagonalScore hhexagonal hclean
  | clean => exact h.cleanScore hclean
  | modular => exact h.modularScore
  | flat => exact h.flatScore
  | unknown => rfl

theorem score_of_hexagonal (ha : p.architecture = .hexagonal) (b : Architecture) :
    s.score b = portScore b := by
  have hparts : layoutParts p.architecture p.style Scan.hexagonalParts = 4 := by
    rw [ha]
    rfl
  cases b with
  | layered => exact h.layeredScore_of_parts (.inl ha)
  | feature => exact h.featureScore_of_layer (by simp [ha])
  | hexagonal => exact h.hexagonalScore_of_parts (by decide) hparts
  | clean => exact h.cleanScore (by simp [ha])
  | modular => exact h.modularScore
  | flat => exact h.flatScore
  | unknown => rfl

theorem score_of_clean (ha : p.architecture = .clean) (b : Architecture) :
    s.score b = useCaseScore b := by
  have hparts : layoutParts p.architecture p.style Scan.hexagonalParts = 3 := by
    rw [ha]
    rfl
  cases b with
  | layered => exact h.layeredScore_of_parts (.inr ha)
  | feature => exact h.featureScore_of_layer (by simp [ha])
  | hexagonal => exact h.hexagonalScore_of_parts (by decide) hparts
  | clean => exact h.cleanScore_of_clean ha
  | modular => exact h.modularScore
  | flat => exact h.flatScore
  | unknown => rfl

theorem score_of_layered (ha : p.architecture = .layered) {b : Architecture} (hb : b ≠ .layered) :
    (s.score b : Float) = Confidence.zero := by
  have hlayer : ¬(p.architecture = .feature ∨ p.architecture = .modular) := by simp [ha]
  cases b with
  | layered => exact absurd rfl hb
  | feature => exact h.featureScore_of_layer hlayer
  | hexagonal => exact h.hexagonalScore (by simp [ha]) (by simp [ha])
  | clean => exact h.cleanScore (by simp [ha])
  | modular => exact h.modularScore
  | flat => exact h.flatScore
  | unknown => rfl

theorem mainFiles_ne_nil : s.mainFiles ≠ [] := by
  have hlarge := h.size_large
  intro hnil
  rw [Scan.size, hnil] at hlarge
  exact absurd hlarge (by decide)

theorem detected_resource (hres : p.architecture = .feature ∨ p.architecture = .modular) :
    (Decision.ofScan s : Decision Float).architecture = .feature ∧
      (Decision.ofScan s : Decision Float).featureStyle =
        some (if p.architecture = .feature ∧ p.style = some .flat then .flat else .nested) := by
  have hpos : Confidence.zero < resourceScore (Decision.best resourceScore) := by decide +kernel
  have hdecision :=
    Decision.architecture_of_scores h.mainFiles_ne_nil (h.score_of_resource hres) hpos
  rwa [best_resourceScore, if_pos rfl, h.featureStyle hres] at hdecision

theorem detected_hexagonal (ha : p.architecture = .hexagonal) :
    (Decision.ofScan s : Decision Float).architecture = .hexagonal := by
  have hpos : Confidence.zero < portScore (Decision.best portScore) := by decide +kernel
  rw [← best_portScore]
  exact (Decision.architecture_of_scores h.mainFiles_ne_nil (h.score_of_hexagonal ha) hpos).1

theorem detected_clean (ha : p.architecture = .clean) :
    (Decision.ofScan s : Decision Float).architecture = .clean := by
  have hpos : Confidence.zero < useCaseScore (Decision.best useCaseScore) := by decide +kernel
  rw [← best_useCaseScore]
  exact (Decision.architecture_of_scores h.mainFiles_ne_nil (h.score_of_clean ha) hpos).1

end Plan.Follows

/-- A project written to a plan has the base package of the plan and is found to have its
architecture and its style of feature modules, however many resources there are and in whatever
order the files come. Modules of a monolith are found, too, but as nested feature modules. -/
theorem Plan.found_as_planned (p : Plan) {files : List SourceFile}
    (hfiles : (files.map fun f => (f.package, f.category)).Perm p.written)
    (tests : List SourceFile) (roots : SourceRoots) (manifests : Manifests) :
    let s := Scan.ofFiles files tests roots manifests
    let d : Decision Float := Decision.ofScan s
    s.basePackage = p.base ∧
      (p.architecture ∈ [.layered, .feature, .hexagonal, .clean] →
        d.architecture = p.architecture) ∧
      (p.architecture = .feature → d.featureStyle = some (p.style.getD .nested)) ∧
      (p.architecture = .modular → d.architecture = .feature ∧ d.featureStyle = some .nested) := by
  have h := p.follows_ofFiles hfiles tests roots manifests
  refine ⟨h.basePackage, ?_, ?_, ?_⟩
  · intro ha
    simp only [List.mem_cons, List.not_mem_nil, or_false] at ha
    rcases ha with ha | ha | ha | ha
    · rw [ha]
      exact Decision.architecture_of_layers fun b hb => h.score_of_layered ha hb
    · rw [ha]
      exact (h.detected_resource (.inl ha)).1
    · rw [ha]
      exact h.detected_hexagonal ha
    · rw [ha]
      exact h.detected_clean ha
  · intro ha
    rw [(h.detected_resource (.inl ha)).2, ha]
    rcases p.style with _ | _ | _ <;> rfl
  · intro ha
    have hdetected := h.detected_resource (.inr ha)
    rwa [ha, if_neg (by simp)] at hdetected

/-- Two resources in packages of their own. -/
def Plan.shop (a : Architecture) (style : Option FeatureStyle) : Plan where
  architecture := a
  style
  base := "com.shop"
  resources := ["User", "Order"]
  base_ne := by decide
  base_free := by decide +kernel
  several := by decide
  distinct := by decide +kernel
  resource_free := by decide +kernel
  single := fun _ => by decide +kernel

def Plan.files (p : Plan) : List SourceFile :=
  p.written.map fun x => { path := x.1 ++ ".java", package := x.1, className := "", category := x.2 }

theorem Plan.files_perm (p : Plan) :
    (p.files.reverse.map fun f => (f.package, f.category)).Perm p.written := by
  rw [List.map_reverse, files, List.map_map]
  exact (List.reverse_perm _).trans (List.Perm.of_eq (List.map_id _))

theorem Plan.detected_flat :
    (((shop .feature (some .flat)).files.reverse.map fun f => (f.package, f.category)).Perm
      (shop .feature (some .flat)).written) ∧
    (Scan.ofFiles (shop .feature (some .flat)).files.reverse [] {} {}).basePackage = "com.shop" ∧
    (Decision.ofScan (Scan.ofFiles (shop .feature (some .flat)).files.reverse [] {} {}) :
      Decision Float).architecture = .feature ∧
    (Decision.ofScan (Scan.ofFiles (shop .feature (some .flat)).files.reverse [] {} {}) :
      Decision Float).featureStyle = some .flat := by
  have hfiles := (shop .feature (some .flat)).files_perm
  obtain ⟨hbase, harchitecture, hstyle, -⟩ := found_as_planned _ hfiles [] {} {}
  exact ⟨hfiles, hbase, harchitecture (by decide), hstyle rfl⟩

/-- Modules of a monolith are taken for feature modules, and a resource whose name has a point in it
moves the base package. -/
theorem Plan.undetected :
    (shop .modular none).architecture = .modular ∧
    (Decision.ofScan (Scan.ofFiles (shop .modular none).files.reverse [] {} {}) :
      Decision Float).architecture = .feature ∧
    (["dto.User", "dto.Order"].map resourceSegment).Nodup ∧
    (∀ r ∈ ["dto.User", "dto.Order"], resourceSegment r ∉ Scan.layerNames) ∧
    Package.base (["dto.User", "dto.Order"].flatMap fun r => plannedLayers.map fun c =>
      packageFor .feature none "com.shop" r (Labelled.label c)) = "com.shop.dto" := by
  have hfollows := (shop .modular none).follows_ofFiles (files_perm _) [] {} {}
  refine ⟨rfl, (hfollows.detected_resource (.inr rfl)).1, by decide +kernel, by decide +kernel, ?_⟩
  rw [Package.base_of_declared (by decide +kernel)]
  decide +kernel

end JavaProfile
