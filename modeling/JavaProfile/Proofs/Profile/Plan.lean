import Mathlib.Data.List.Nodup
import JavaProfile.Architecture.Score
import JavaProfile.Profile.Layout
import JavaProfile.Proofs.Package.Base
import JavaProfile.Source.Category

/-!
Plans of new projects: a base package and some resources, each with a file for every layer in the
package that the layout of an architecture gives it. What the packages have in common is the base
package.
-/

namespace JavaProfile

/-- The layers that a resource has files of. -/
def plannedLayers : List Category :=
  [.controller, .service, .repository, .entity, .dto, .mapper]

/-! ### Layouts -/

section Layout

variable {a : Architecture} {style : Option FeatureStyle} {x part : String}

theorem notMem_label (c : Category) : '.' ∉ (Labelled.label c).toList := by
  cases c <;> decide

theorem layout_of_resource (h : a = .feature ∨ a = .modular) (style : Option FeatureStyle)
    (x : String) (c : Category) :
    ∃ ps, layout a style x (Labelled.label c) = x :: ps ∧ ∀ p ∈ ps, '.' ∉ p.toList := by
  have hlabel := notMem_label c
  rcases h with rfl | rfl
  · rw [layout]
    split
    · rw [flatModuleLayout]
      split
      · exact ⟨["dto"], rfl, by decide⟩
      · exact ⟨[], rfl, by decide⟩
    · exact ⟨[Labelled.label c], rfl, by simpa using hlabel⟩
  · exact ⟨["internal", Labelled.label c], rfl, by simpa using hlabel⟩

theorem layout_of_layer (h : ¬(a = .feature ∨ a = .modular)) (style : Option FeatureStyle)
    (x : String) (c : Category) :
    layout a style x (Labelled.label c) = layout a none "" (Labelled.label c) := by
  cases a <;> first | rfl | exact absurd (by simp) h

theorem notMem_layout (h : ¬(a = .feature ∨ a = .modular)) (c : Category) :
    ∀ q ∈ layout a none "" (Labelled.label c), '.' ∉ q.toList := by
  revert h
  cases a <;> cases c <;> decide

theorem layout_ne_nil (a : Architecture) (style : Option FeatureStyle) (x layer : String) :
    layout a style x layer ≠ [] := by
  cases a with
  | layered | flat | unknown | modular => exact List.cons_ne_nil _ _
  | feature =>
    rw [layout, flatModuleLayout]
    split
    · split <;> exact List.cons_ne_nil _ _
    · exact List.cons_ne_nil _ _
  | hexagonal =>
    rw [layout, hexagonalLayout]
    repeat' split
    all_goals exact List.cons_ne_nil _ _
  | clean =>
    rw [layout, cleanLayout]
    repeat' split
    all_goals exact List.cons_ne_nil _ _

theorem head_layout (h : ¬(a = .feature ∨ a = .modular)) : ∀ c ∈ plannedLayers,
    ∃ m ∈ Scan.layerNames, (layout a none "" (Labelled.label c)).head? = some m := by
  revert h
  cases a <;> decide

/-- Ports and adapters, and use cases, keep layers out of the base package. -/
theorem head_layout_bare (h : a = .hexagonal ∨ a = .clean) : ∀ c ∈ plannedLayers,
    ∀ l ∈ Scan.layerPackages, (layout a none "" (Labelled.label c)).head? ≠ some l := by
  rcases h with rfl | rfl <;> decide

theorem layout_apart (h : ¬(a = .feature ∨ a = .modular)) :
    ∀ c ∈ [Category.controller, .entity, .repository], ∀ c' ∈ [Category.controller, .entity,
      .repository], layout a none "" (Labelled.label c) = layout a none "" (Labelled.label c') →
        c = c' := by
  revert h
  cases a <;> decide

theorem mem_layout (hx : x ∉ Scan.layerNames) (hpart : part ∈ Scan.layerNames) (c : Category) :
    part ∈ layout a style x (Labelled.label c) ↔ part ∈ layout a style "" (Labelled.label c) := by
  have hne : part ≠ x := fun heq => hx (heq ▸ hpart)
  have hempty : part ≠ "" := fun heq => absurd (heq ▸ hpart) (by decide)
  cases a with
  | feature =>
    rw [layout, layout]
    split
    · rw [flatModuleLayout, flatModuleLayout]
      split <;> simp [hne, hempty]
    · simp [hne, hempty]
  | modular => simp [layout, hne, hempty]
  | layered | hexagonal | clean | flat | unknown => rfl

/-- How many of the names are in some package of a layout. -/
def layoutParts (a : Architecture) (style : Option FeatureStyle) (parts : List String) : ℕ :=
  parts.countP fun part => plannedLayers.any fun c =>
    (layout a style "" (Labelled.label c)).contains part

theorem layoutParts_modular (a : Architecture) (style : Option FeatureStyle) :
    layoutParts a style Scan.modularParts < 2 := by
  cases a <;> rcases style with _ | _ | _ <;> decide

theorem layoutParts_clean (h : a ≠ .clean) (style : Option FeatureStyle) :
    layoutParts a style Scan.cleanParts < 1 := by
  revert h
  cases a <;> rcases style with _ | _ | _ <;> decide

theorem layoutParts_hexagonal (h : a ≠ .hexagonal) (h' : a ≠ .clean)
    (style : Option FeatureStyle) : layoutParts a style Scan.hexagonalParts < 2 := by
  revert h h'
  cases a <;> rcases style with _ | _ | _ <;> decide

end Layout

/-! ### Plans -/

/-- Files to be written. No segment of the base package and no resource is named like a layer, and
resources that have packages of their own are named by one segment. -/
structure Plan where
  architecture : Architecture
  style : Option FeatureStyle
  base : String
  resources : List String
  base_ne : base ≠ ""
  base_free : ∀ p ∈ Package.segments base, p ∉ Scan.layerNames
  several : 2 ≤ resources.length
  distinct : (resources.map resourceSegment).Nodup
  resource_free : ∀ r ∈ resources, resourceSegment r ∉ Scan.layerNames
  single : architecture = .feature ∨ architecture = .modular →
    ∀ r ∈ resources, '.' ∉ (resourceSegment r).toList

namespace Plan

variable {p : Plan} {r r' part : String} {c c' : Category}

def below (p : Plan) (r : String) (c : Category) : List String :=
  layout p.architecture p.style (resourceSegment r) (Labelled.label c)

def package (p : Plan) (r : String) (c : Category) : String :=
  packageFor p.architecture p.style p.base r (Labelled.label c)

/-- The packages of all files, with the layers of the files. -/
def written (p : Plan) : List (String × Category) :=
  p.resources.flatMap fun r => plannedLayers.map fun c => (p.package r c, c)

theorem mem_written {x : String × Category} :
    x ∈ p.written ↔ ∃ r ∈ p.resources, ∃ c ∈ plannedLayers, x = (p.package r c, c) := by
  simp [written, eq_comm]

theorem length_written (p : Plan) : p.written.length = 6 * p.resources.length := by
  simp [written, plannedLayers, List.length_flatMap, List.map_const', Nat.mul_comm]

theorem exists_resources (p : Plan) :
    ∃ r ∈ p.resources, ∃ r' ∈ p.resources, resourceSegment r ≠ resourceSegment r' := by
  obtain ⟨r, r', rs, heq⟩ : ∃ r r' rs, p.resources = r :: r' :: rs := by
    have hlength := p.several
    cases hresources : p.resources with
    | nil => simp [hresources] at hlength
    | cons r rs =>
      cases rs with
      | nil => simp [hresources] at hlength
      | cons r' rs => exact ⟨r, r', rs, rfl⟩
  have hdistinct := p.distinct
  rw [heq] at hdistinct
  simp only [List.map_cons, List.nodup_cons, List.mem_cons, not_or] at hdistinct
  exact ⟨r, by simp [heq], r', by simp [heq], hdistinct.1.1⟩

/-! ### Packages -/

theorem below_of_resource (h : p.architecture = .feature ∨ p.architecture = .modular) (r : String)
    (c : Category) :
    ∃ ps, p.below r c = resourceSegment r :: ps ∧ ∀ q ∈ ps, '.' ∉ q.toList :=
  layout_of_resource h p.style (resourceSegment r) c

/-- Only in a flat module, and there only transfer objects do not, files lie in the package of the
module itself. -/
theorem below_eq_singleton (h : p.architecture = .feature ∨ p.architecture = .modular) (r : String)
    (c : Category) : p.below r c = [resourceSegment r] ↔
      (p.architecture = .feature ∧ p.style = some .flat) ∧ c ≠ .dto := by
  have hdto : Labelled.label c = "dto" ↔ c = .dto := by cases c <;> decide
  rcases h with heq | heq
  · rw [below, heq, layout]
    split
    · next hstyle => simp [flatModuleLayout, hstyle, hdto]
    · next hstyle => simp [hstyle]
  · simp [below, heq, layout]

theorem below_of_layer (h : ¬(p.architecture = .feature ∨ p.architecture = .modular)) (r : String)
    (c : Category) : p.below r c = layout p.architecture none "" (Labelled.label c) :=
  layout_of_layer h p.style (resourceSegment r) c

theorem below_ne_nil (p : Plan) (r : String) (c : Category) : p.below r c ≠ [] :=
  layout_ne_nil _ _ _ _

theorem pieces_package (hr : r ∈ p.resources) (c : Category) :
    Package.pieces (p.package r c) = Package.pieces p.base ++ p.below r c := by
  apply Package.pieces_ofPieces_cons p.base (p.below_ne_nil r c)
  by_cases h : p.architecture = .feature ∨ p.architecture = .modular
  · obtain ⟨ps, hps, hfree⟩ := below_of_resource h r c
    change ∀ q ∈ p.below r c, _
    rw [hps, List.forall_mem_cons]
    exact ⟨p.single h r hr, hfree⟩
  · change ∀ q ∈ p.below r c, _
    rw [below_of_layer h]
    exact notMem_layout h c

theorem package_ne (hr : r ∈ p.resources) (c : Category) : p.package r c ≠ "" := by
  intro heq
  have hlength := congrArg List.length (pieces_package hr c)
  have hbase := List.length_pos_iff.mpr (Package.pieces_ne_nil p.base)
  have hbelow := List.length_pos_iff.mpr (p.below_ne_nil r c)
  rw [heq, List.length_append] at hlength
  change 1 = _ at hlength
  omega

theorem package_injective (hr : r ∈ p.resources) (hr' : r' ∈ p.resources)
    (h : p.package r c = p.package r' c') : p.below r c = p.below r' c' := by
  have hpieces := congrArg Package.pieces h
  rw [pieces_package hr, pieces_package hr'] at hpieces
  exact List.append_cancel_left hpieces

theorem hasSegment_package (hr : r ∈ p.resources) (hpart : part ∈ Scan.layerNames) (c : Category) :
    Package.hasSegment (p.package r c) part ↔
      part ∈ layout p.architecture p.style "" (Labelled.label c) := by
  have hbase : part ∉ Package.pieces p.base := by
    have hfree := p.base_free
    rw [Package.segments, if_neg p.base_ne] at hfree
    exact fun hmem => hfree part hmem hpart
  rw [Package.hasSegment, Package.segments, if_neg (package_ne hr c), List.contains_iff_mem,
    pieces_package hr, List.mem_append, or_iff_right hbase]
  exact mem_layout (p.resource_free r hr) hpart c

theorem isWithin_child (hr : r ∈ p.resources) (c : Category) {m : String} (hm : '.' ∉ m.toList) :
    Package.isWithin (p.package r c) (Package.child p.base m) ↔ (p.below r c).head? = some m := by
  rw [Package.isWithin_iff, Package.pieces_child p.base_ne hm, pieces_package hr,
    List.prefix_append_right_inj]
  cases p.below r c with
  | nil => simp
  | cons q qs => simp [List.cons_prefix_cons, eq_comm]

theorem moduleOf?_package (hr : r ∈ p.resources) (c : Category) :
    Scan.moduleOf? p.base (p.package r c) =
      (p.below r c).head?.filter fun m => !Scan.layerNames.contains m := by
  have hpieces := pieces_package hr c
  have hwithin : Package.isWithin (p.package r c) p.base := by
    rw [Package.isWithin_iff, hpieces]
    exact List.prefix_append _ _
  rw [Scan.moduleOf?, if_pos hwithin, Scan.segmentBelow?, Package.segments, Package.segments,
    if_neg (package_ne hr c), if_neg p.base_ne, hpieces, List.getElem?_append_right (le_refl _),
    Nat.sub_self, List.head?_eq_getElem?]

theorem moduleOf?_resource (h : p.architecture = .feature ∨ p.architecture = .modular)
    (hr : r ∈ p.resources) (c : Category) :
    Scan.moduleOf? p.base (p.package r c) = some (resourceSegment r) := by
  obtain ⟨ps, hps, -⟩ := below_of_resource h r c
  have hfree := p.resource_free r hr
  rw [moduleOf?_package hr c, hps]
  simpa using hfree

theorem exists_apart (p : Plan) : ∃ r ∈ p.resources, ∃ c ∈ plannedLayers, ∃ r' ∈ p.resources,
    ∃ c' ∈ plannedLayers, (p.below r c).head? ≠ (p.below r' c').head? := by
  obtain ⟨r, hr, r', hr', hne⟩ := p.exists_resources
  by_cases h : p.architecture = .feature ∨ p.architecture = .modular
  · refine ⟨r, hr, .controller, by decide, r', hr', .controller, by decide, ?_⟩
    obtain ⟨ps, hps, -⟩ := below_of_resource h r .controller
    obtain ⟨ps', hps', -⟩ := below_of_resource h r' .controller
    rw [hps, hps']
    simpa using hne
  · refine ⟨r, hr, .controller, by decide, r, hr, .service, by decide, ?_⟩
    rw [below_of_layer h, below_of_layer h]
    revert h
    cases p.architecture <;> decide

theorem below_dto_ne (h : p.architecture = .feature ∨ p.architecture = .modular) (r : String) :
    p.below r .controller ≠ p.below r .dto := by
  have hcontroller : Labelled.label Category.controller = "controller" := rfl
  have hdto : Labelled.label Category.dto = "dto" := rfl
  rw [below, below, hcontroller, hdto]
  rcases h with heq | heq
  · rw [heq, layout, layout]
    split <;> simp [flatModuleLayout]
  · simp [heq, layout]

theorem exists_packages (p : Plan) : ∃ names : List String, names.length = 3 ∧ names.Nodup ∧
    ∀ n ∈ names, ∃ r ∈ p.resources, ∃ c ∈ plannedLayers, n = p.package r c := by
  obtain ⟨r, hr, r', hr', hne⟩ := p.exists_resources
  by_cases h : p.architecture = .feature ∨ p.architecture = .modular
  · refine ⟨[p.package r .controller, p.package r .dto, p.package r' .controller], rfl, ?_, ?_⟩
    · have hapart (c : Category) : p.below r c ≠ p.below r' .controller := by
        obtain ⟨ps, hps, -⟩ := below_of_resource h r c
        obtain ⟨ps', hps', -⟩ := below_of_resource h r' .controller
        simp [hps, hps', hne]
      simp only [List.nodup_cons, List.mem_cons, List.not_mem_nil, or_false, not_or,
        not_false_eq_true, List.nodup_nil, and_true]
      exact ⟨⟨fun heq => below_dto_ne h r (package_injective hr hr heq),
        fun heq => hapart _ (package_injective hr hr' heq)⟩,
        fun heq => hapart _ (package_injective hr hr' heq)⟩
    · simp only [List.forall_mem_cons]
      exact ⟨⟨r, hr, _, by decide, rfl⟩, ⟨r, hr, _, by decide, rfl⟩, ⟨r', hr', _, by decide, rfl⟩,
        by simp⟩
  · refine ⟨[.controller, .entity, .repository].map (p.package r), rfl, ?_, ?_⟩
    · apply List.Nodup.map_on ?_ (by decide)
      intro c hc c' hc' heq
      have hbelow := package_injective hr hr heq
      rw [below_of_layer h, below_of_layer h] at hbelow
      exact layout_apart h c hc c' hc' hbelow
    · have hlayers : [Category.controller, .entity, .repository] ⊆ plannedLayers := by decide
      intro n hn
      obtain ⟨c, hc, rfl⟩ := List.mem_map.mp hn
      exact ⟨r, hr, c, hlayers hc, rfl⟩

theorem base_packages (p : Plan) {names : List String}
    (h : names.Perm (p.written.map Prod.fst)) : Package.base names = p.base := by
  have hmem (n : String) :
      n ∈ names ↔ ∃ r ∈ p.resources, ∃ c ∈ plannedLayers, n = p.package r c := by
    rw [h.mem_iff, List.mem_map]
    constructor
    · rintro ⟨x, hx, rfl⟩
      obtain ⟨r, hr, c, hc, rfl⟩ := mem_written.mp hx
      exact ⟨r, hr, c, hc, rfl⟩
    · rintro ⟨r, hr, c, hc, rfl⟩
      exact ⟨_, mem_written.mpr ⟨r, hr, c, hc, rfl⟩, rfl⟩
  have hdeclared : ∀ n ∈ names, n ≠ "" := by
    intro n hn
    obtain ⟨r, hr, c, -, rfl⟩ := (hmem n).mp hn
    exact package_ne hr c
  obtain ⟨r, hr, c, hc, r', hr', c', hc', hne⟩ := p.exists_apart
  have hfirst := (hmem _).mpr ⟨r, hr, c, hc, rfl⟩
  have hsecond := (hmem _).mpr ⟨r', hr', c', hc', rfl⟩
  have hshared : Package.shared names = Package.pieces p.base := by
    apply Package.shared_eq (List.ne_nil_of_mem hfirst)
    intro rs
    constructor
    · intro hrs n hn
      obtain ⟨r, hr, c, -, rfl⟩ := (hmem n).mp hn
      rw [pieces_package hr]
      exact hrs.trans (List.prefix_append _ _)
    · intro hrs
      rw [← Package.commonPieces_append (Package.pieces p.base) hne, ← pieces_package hr,
        ← pieces_package hr', Package.prefix_commonPieces]
      exact ⟨hrs _ hfirst, hrs _ hsecond⟩
  rw [Package.base_of_declared hdeclared, Package.commonPrefix_eq, hshared,
    Package.ofPieces_pieces]

end Plan

end JavaProfile
