import Mathlib.Tactic.GCongr
import Mathlib.Tactic.Ring
import JavaProfile.Proofs.Architecture.Counted

/-!
Scores of a project that grows. The signs of a style become no fewer with one more file, and a file
of a layer or of a feature module raises the share of such files, so scores do not fall.
-/

namespace JavaProfile

namespace Confidence

variable {x y signal signal' consistency consistency' confidence confidence' : ℚ}
  {ambiguity ambiguity' : ℚ} {m n : ℕ} {distinctive distinctive' : Bool}

theorem percent_nonneg (n : ℕ) : 0 ≤ (percent n : ℚ) := by
  rw [percent]
  positivity

@[gcongr]
theorem clamp_mono (h : x ≤ y) : clamp x ≤ clamp y := by
  rw [clamp_eq, clamp_eq]
  gcongr

@[gcongr]
theorem sampleShare_mono (h : m ≤ n) : (sampleShare m : ℚ) ≤ sampleShare n := by
  by_cases hm : m = 0
  · rw [sampleShare, if_pos hm, zero_eq]
    by_cases hn : n = 0
    · rw [sampleShare, if_pos hn, zero_eq]
    · exact (sampleShare_pos hn).le
  · rw [sampleShare, sampleShare, if_neg hm, if_neg (by omega), least_eq, least_eq]
    gcongr

@[gcongr]
theorem ofSignal_mono (hsignal : signal ≤ signal') (hsize : m ≤ n)
    (hconsistency : consistency ≤ consistency') :
    ofSignal signal m consistency ≤ ofSignal signal' n consistency' := by
  have hpercent := percent_nonneg
  rw [ofSignal, ofSignal, weigh, weigh]
  gcongr <;> exact hpercent _

theorem add_if_mono {p q : Prop} [Decidable p] [Decidable q] (h : x ≤ y) (hpq : p → q) (n : ℕ) :
    (if p then x + percent n else x) ≤ if q then y + percent n else y := by
  have hpercent := percent_nonneg n
  by_cases hp : p
  · rw [if_pos hp, if_pos (hpq hp)]
    gcongr
  · rw [if_neg hp]
    split <;> linarith

theorem adjust_mono (hconfidence : confidence ≤ confidence')
    (hdistinctive : distinctive → distinctive') (hambiguity : ambiguity' ≤ ambiguity) :
    adjust confidence distinctive ambiguity ≤ adjust confidence' distinctive' ambiguity' := by
  have hraised := add_if_mono hconfidence hdistinctive 10
  have hpercent := percent_nonneg 15
  rw [adjust, adjust]
  gcongr

theorem ofStyle_nonneg (matching total : ℕ) (distinctive : Bool) (ambiguity : ℚ) :
    0 ≤ ofStyle matching total distinctive ambiguity := by
  rw [ofStyle]
  split
  · exact zero_eq.ge
  · exact (clamp_bounds _).1

theorem ofStyle_mono {matching matching' : ℕ}
    (hshare : (matching : ℚ) / m ≤ (matching' : ℚ) / n) (htotal : m ≤ n)
    (hdistinctive : distinctive → distinctive') (hambiguity : ambiguity' ≤ ambiguity) :
    ofStyle matching m distinctive ambiguity ≤ ofStyle matching' n distinctive' ambiguity' := by
  by_cases hm : m = 0
  · rw [ofStyle, if_pos hm, zero_eq]
    exact ofStyle_nonneg _ _ _ _
  · rw [ofStyle, ofStyle, if_neg hm, if_neg (by omega)]
    apply adjust_mono ?_ hdistinctive hambiguity
    gcongr

end Confidence

namespace Scan

open Confidence

variable {s s' : Scan} {f : SourceFile} {m : String}

/-! ### Shares -/

theorem share_succ {part total : ℕ} (h : part ≤ total) (htotal : total ≠ 0) :
    (share part total : ℚ) ≤ share (part + 1) (total + 1) := by
  have hle : (part : ℚ) ≤ total := by exact_mod_cast h
  have hpos : (0 : ℚ) < total := by exact_mod_cast Nat.pos_of_ne_zero htotal
  rw [share, share, Nat.cast_succ, Nat.cast_succ, div_le_div_iff₀ hpos (by linarith)]
  linarith

theorem share_mono {part part' : ℕ} (h : part ≤ part') (total : ℕ) :
    (share part total : ℚ) ≤ share part' total := by
  rw [share, share]
  gcongr

theorem raiseFor_mono {x y : ℚ} {first first' second second' : Bool} (h : x ≤ y)
    (hfirst : first → first') (hsecond : second → second') :
    raiseFor first second x ≤ raiseFor first' second' y :=
  add_if_mono (add_if_mono h hfirst 5) hsecond 5

theorem raiseFor_nonneg {x : ℚ} {first second : Bool} (h : 0 ≤ x) :
    0 ≤ raiseFor first second x := by
  have hplain : raiseFor false false (0 : ℚ) ≤ raiseFor first second x :=
    raiseFor_mono h (by simp) (by simp)
  exact hplain

theorem discount_mono {x y r r' : ℚ} (hx : 0 ≤ x) (h : x ≤ y) (hr : 0 ≤ r) (hr' : r ≤ r') :
    discount x r ≤ discount y r' := by
  have hhalf (x r : ℚ) : x * r + x * (one - r) * percent 50 = x * ((1 + r) / 2) := by
    rw [one_eq, percent]
    push_cast
    ring
  have hy := hx.trans h
  rw [discount, discount, hhalf, hhalf]
  gcongr

/-! ### One file more -/

/-- A scan with one main file more, and the same base package. -/
structure Adds (s : Scan) (f : SourceFile) (s' : Scan) : Prop where
  files : s'.mainFiles.Perm (f :: s.mainFiles)
  basePackage : s'.basePackage = s.basePackage

theorem adds_append (s : Scan) (f : SourceFile) :
    s.Adds f { s with mainFiles := s.mainFiles ++ [f] } where
  files := List.perm_append_singleton f s.mainFiles
  basePackage := rfl

namespace Adds

variable (h : s.Adds f s')

include h

theorem mem_mainFiles {g : SourceFile} : g ∈ s'.mainFiles ↔ g = f ∨ g ∈ s.mainFiles := by
  rw [h.files.mem_iff, List.mem_cons]

theorem size : s'.size = s.size + 1 :=
  h.files.length_eq

theorem countP (p : SourceFile → Bool) :
    s'.mainFiles.countP p = s.mainFiles.countP p + if p f then 1 else 0 := by
  rw [h.files.countP_eq, List.countP_cons]

theorem within_subset (package : String) : s.within package ⊆ s'.within package := by
  intro g hg
  obtain ⟨hmem, hwithin⟩ := mem_within.mp hg
  exact mem_within.mpr ⟨h.mem_mainFiles.mpr (.inr hmem), hwithin⟩

/-! ### Parts of styles -/

theorem packages_subset : s.packages ⊆ s'.packages := by
  intro p
  rw [packages, packages, List.mem_eraseDups, List.mem_eraseDups, List.mem_filter, List.mem_filter,
    List.mem_map, List.mem_map]
  rintro ⟨⟨g, hg, rfl⟩, hp⟩
  exact ⟨⟨g, h.mem_mainFiles.mpr (.inr hg), rfl⟩, hp⟩

theorem partsFound_le (parts : List String) : s.partsFound parts ≤ s'.partsFound parts := by
  apply List.countP_mono_left
  intro part _ hfound
  obtain ⟨p, hp, hsegment⟩ := List.any_eq_true.mp hfound
  exact List.any_eq_true.mpr ⟨p, h.packages_subset hp, hsegment⟩

theorem hexagonalScore_le : (s.hexagonalScore : ℚ) ≤ s'.hexagonalScore := by
  have hfound := h.partsFound_le hexagonalParts
  have hsize := h.size
  rw [hexagonalScore]
  dsimp only
  split
  · rw [zero_eq]
    exact (s'.score_bounds .hexagonal).1
  · rw [hexagonalScore]
    dsimp only
    rw [if_neg (by omega)]
    exact ofSignal_mono (share_mono hfound _) (by omega) (share_mono hfound _)

theorem cleanScore_le : (s.cleanScore : ℚ) ≤ s'.cleanScore := by
  have hspecific := h.partsFound_le cleanParts
  have hsupport := h.partsFound_le cleanSupport
  have hsize := h.size
  have hpercent := percent_nonneg
  by_cases hnone : s.partsFound cleanParts < 1
  · rw [cleanScore]
    dsimp only
    rw [if_pos hnone, zero_eq]
    exact (s'.score_bounds .clean).1
  · have hsignal : share (s.partsFound cleanParts) cleanParts.length * percent 70 +
        share (s.partsFound cleanSupport) cleanSupport.length * percent 30 ≤
        (share (s'.partsFound cleanParts) cleanParts.length * percent 70 +
          share (s'.partsFound cleanSupport) cleanSupport.length * percent 30 : ℚ) := by
      apply add_le_add
      · exact mul_le_mul_of_nonneg_right (share_mono hspecific _) (hpercent 70)
      · exact mul_le_mul_of_nonneg_right (share_mono hsupport _) (hpercent 30)
    rw [cleanScore, cleanScore]
    dsimp only
    rw [if_neg hnone, if_neg (show ¬ s'.partsFound cleanParts < 1 by omega)]
    apply clamp_mono
    apply add_if_mono _ (fun htwo => htwo.trans hsupport)
    apply add_if_mono _ (fun htwo => htwo.trans hspecific)
    exact ofSignal_mono hsignal (by omega) hsignal

theorem modularScore_le : (s.modularScore : ℚ) ≤ s'.modularScore := by
  have hfound := h.partsFound_le modularParts
  have hsize := h.size
  rw [modularScore]
  split
  · rw [zero_eq]
    exact (s'.score_bounds .modular).1
  · rw [modularScore, if_neg (by omega)]
    exact ofSignal_mono (share_mono hfound _) (by omega) le_rfl

/-! ### Layers -/

theorem filesOfLayer_subset (l : String) : s.filesOfLayer l ⊆ s'.filesOfLayer l := by
  rw [filesOfLayer, filesOfLayer, h.basePackage]
  exact h.within_subset _

theorem layersFound_le : s.layersFound ≤ s'.layersFound := by
  apply List.countP_mono_left
  intro l _ hfound
  rw [Bool.not_eq_true', List.isEmpty_eq_false_iff] at hfound ⊢
  exact fun hnone => hfound (List.eq_nil_of_subset_nil (hnone ▸ h.filesOfLayer_subset l))

theorem filesInLayers (hlayer : ∃ l ∈ layerPackages,
    Package.isWithin f.package (Package.child s.basePackage l)) :
    s'.filesInLayers = s.filesInLayers + 1 := by
  rw [filesInLayers_eq, filesInLayers_eq, h.countP, h.basePackage,
    if_pos (List.any_eq_true.mpr hlayer)]

theorem layeredScore_le (hlayer : ∃ l ∈ layerPackages,
    Package.isWithin f.package (Package.child s.basePackage l)) :
    (s.layeredScore : ℚ) ≤ s'.layeredScore := by
  have hsize := h.size
  rw [layeredScore]
  split
  · rw [zero_eq]
    exact (s'.score_bounds .layered).1
  · next hne =>
    have hcoverage : (s.layerCoverage : ℚ) ≤ s'.layerCoverage := by
      have hshare := share_mono h.layersFound_le 4
      rw [layerCoverage, layerCoverage, least_eq, least_eq]
      gcongr
    have hshare : (share s.filesInLayers s.size : ℚ) ≤ share s'.filesInLayers s'.size := by
      rw [h.filesInLayers hlayer, h.size]
      exact share_succ s.filesInLayers_le hne
    rw [layeredScore, if_neg (by omega)]
    apply ofSignal_mono ?_ (by omega) hcoverage
    gcongr

/-! ### Feature modules -/

theorem isDiverse (hdiverse : s.isDiverse m) : s'.isDiverse m := by
  have hfiles : s.filesOf m ⊆ s'.filesOf m := by
    rw [filesOf, filesOf, modulePackage, modulePackage, h.basePackage]
    exact h.within_subset _
  have hsubset : ((s.filesOf m).map (·.category)).eraseDups ⊆
      ((s'.filesOf m).map (·.category)).eraseDups := by
    intro c
    rw [List.mem_eraseDups, List.mem_eraseDups]
    exact fun hc => List.map_subset _ hfiles hc
  have hle := ((nodup_eraseDups _).subperm hsubset).length_le
  exact decide_eq_true ((of_decide_eq_true hdiverse).trans hle)

theorem hasCommon (hcommon : s.hasCommon) : s'.hasCommon := by
  obtain ⟨g, hg, hwithin⟩ := List.any_eq_true.mp hcommon
  rw [← h.basePackage] at hwithin
  exact List.any_eq_true.mpr ⟨g, h.mem_mainFiles.mpr (.inr hg), hwithin⟩

section Module

variable (hm : m ∈ s.featureModules) (hwithin : Package.isWithin f.package (s.modulePackage m))

include hm hwithin

theorem featureModules : s'.featureModules = s.featureModules := by
  obtain ⟨hbase, hfound⟩ := mem_featureModules.mp hm
  rw [Scan.featureModules, Scan.featureModules, h.basePackage, if_neg hbase, if_neg hbase]
  apply mergeSort_texts
  apply (List.perm_ext_iff_of_nodup (nodup_eraseDups _) (nodup_eraseDups _)).mpr
  intro m'
  rw [List.mem_eraseDups, List.mem_eraseDups, List.mem_filterMap, List.mem_filterMap]
  constructor
  · rintro ⟨g, hg, hmodule⟩
    rcases h.mem_mainFiles.mp hg with rfl | hg
    · rw [moduleOf?_of_isWithin hm hwithin] at hmodule
      obtain rfl := Option.some.inj hmodule
      exact hfound
    · exact ⟨g, hg, hmodule⟩
  · rintro ⟨g, hg, hmodule⟩
    exact ⟨g, h.mem_mainFiles.mpr (.inr hg), hmodule⟩

theorem filesInModules : s'.filesInModules s'.featureModules =
    s.filesInModules s.featureModules + 1 := by
  have hany : (s.featureModules.any fun m => Package.isWithin f.package (s.modulePackage m)) =
      true := List.any_eq_true.mpr ⟨m, hm, hwithin⟩
  rw [filesInModules_eq, filesInModules_eq, h.countP, h.featureModules hm hwithin]
  simp only [modulePackage, h.basePackage] at hany ⊢
  rw [if_pos hany]

theorem featureScore_le : (s.featureScore : ℚ) ≤ s'.featureScore := by
  by_cases hfew : s.basePackage = "" ∨ s.featureModules.length < 2
  · rw [featureScore]
    dsimp only
    rw [if_pos hfew, zero_eq]
    exact (s'.score_bounds .feature).1
  · have hsize := h.size
    have hpos : s.size ≠ 0 := size_ne_zero_of_module hm
    have hmodules := h.featureModules hm hwithin
    have hfiles := h.filesInModules hm hwithin
    have hshare : (share (s.filesInModules s.featureModules) s.size : ℚ) ≤
        share (s'.filesInModules s'.featureModules) s'.size := by
      rw [hfiles, hsize]
      exact share_succ s.filesInModules_le hpos
    have hquality : (share (s.featureModules.countP s.isDiverse) s.featureModules.length : ℚ) ≤
        share (s'.featureModules.countP s'.isDiverse) s'.featureModules.length := by
      rw [hmodules]
      exact share_mono (List.countP_mono_left fun m _ hdiverse => h.isDiverse hdiverse) _
    rw [featureScore, featureScore]
    dsimp only
    rw [if_neg hfew, if_neg (by rwa [h.basePackage, hmodules])]
    have hstyle := ofStyle_mono hshare (show s.size ≤ s'.size by omega) h.hasCommon
      (sub_le_sub_left hquality one)
    apply discount_mono ?_ ?_ (share_mem s.filesInModules_le).1 hshare
    · exact raiseFor_nonneg (ofStyle_nonneg _ _ _ _)
    · apply raiseFor_mono hstyle h.hasCommon
      simpa using fun hgood => hgood.trans_le hquality

end Module

end Adds

/-- One main file more lowers no score of a style that shows in the parts of package names, that of
layers only if it lies in none of them, and that of feature modules only if it lies in none that is
there. -/
theorem score_mono (h : s.Adds f s') :
    (s.hexagonalScore : ℚ) ≤ s'.hexagonalScore ∧ (s.cleanScore : ℚ) ≤ s'.cleanScore ∧
      (s.modularScore : ℚ) ≤ s'.modularScore ∧
    ((∃ l ∈ layerPackages, Package.isWithin f.package (Package.child s.basePackage l)) →
      (s.layeredScore : ℚ) ≤ s'.layeredScore) ∧
    ((∃ m ∈ s.featureModules, Package.isWithin f.package (s.modulePackage m)) →
      (s.featureScore : ℚ) ≤ s'.featureScore) := by
  refine ⟨h.hexagonalScore_le, h.cleanScore_le, h.modularScore_le, h.layeredScore_le, ?_⟩
  rintro ⟨m, hm, hwithin⟩
  exact h.featureScore_le hm hwithin

theorem score_mono_alike :
    let entity : SourceFile := { path := "Tag.java", package := "shop.entity", className := "Tag" }
    let login : SourceFile :=
      { path := "Login.java", package := "shop.user.web", className := "Login", category := .dto }
    let s := { alike with mainFiles := alike.mainFiles ++ [entity] }
    let s' := { alike with mainFiles := alike.mainFiles ++ [login] }
    (alike.layeredScore : ℚ) = 63 / 200 ∧ (s.layeredScore : ℚ) = 149 / 300 ∧
      alike.layeredScore ≤ (s.layeredScore : ℚ) ∧ "user" ∈ alike.featureModules ∧
      (alike.featureScore : ℚ) ≤ s'.featureScore := by
  intro entity login s s'
  have hmodule : "user" ∈ alike.featureModules :=
    mem_featureModules.mpr ⟨by decide, _, List.mem_cons_of_mem _ List.mem_cons_self,
      by decide +kernel⟩
  obtain ⟨-, -, -, hlayered, -⟩ := score_mono (alike.adds_append entity)
  obtain ⟨-, -, -, -, hfeature⟩ := score_mono (alike.adds_append login)
  exact ⟨by decide +kernel, by decide +kernel,
    hlayered ⟨"entity", by decide, by decide +kernel⟩, hmodule,
    hfeature ⟨"user", hmodule, by decide +kernel⟩⟩

end Scan

end JavaProfile
