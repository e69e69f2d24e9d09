import JavaProfile.Proofs.Profile.Plan

/-!
Files that are added to a project in the packages of a layout. They lie beneath the base package, so
that it stays the same, however many are added and in which order. Their packages have no empty
segments if the base package has none, and begin with a point if there is no base package.
-/

namespace JavaProfile

namespace Text

variable {c : Char}

theorem lower_ne_nil (c : Char) : lower c ≠ [] := by
  rw [lower]
  split
  · exact List.cons_ne_nil _ _
  · split <;> exact List.cons_ne_nil _ _

theorem lowerRuns_beyond : ∀ run ∈ lowerRuns, '.'.toNat < run.2.2.2 := by
  decide +kernel

theorem lowerIn?_beyond {n small : ℕ} {run : ℕ × ℕ × ℕ × ℕ} (h : lowerIn? n run = some small) :
    run.2.2.2 ≤ small := by
  obtain ⟨first, last, step, target⟩ := run
  rw [lowerIn?] at h
  split at h
  · cases h
    exact Nat.le_add_right _ _
  · cases h

theorem ofNat_ne_point {n : ℕ} (h : '.'.toNat < n) : Char.ofNat n ≠ '.' := by
  intro heq
  have hpoint := congrArg Char.toNat heq
  by_cases hvalid : n.isValidChar
  · rw [Char.ofNat, dif_pos hvalid] at hpoint
    exact h.ne' hpoint
  · rw [Char.ofNat, dif_neg hvalid] at hpoint
    exact absurd hpoint (by decide)

theorem point_notMem_lower (h : c ≠ '.') : '.' ∉ lower c := by
  rw [lower]
  split
  · decide
  · split
    · next small hsmall =>
      obtain ⟨run, hrun, hin⟩ := List.exists_of_findSome?_eq_some hsmall
      have hbeyond := (lowerRuns_beyond run hrun).trans_le (lowerIn?_beyond hin)
      simpa using (ofNat_ne_point hbeyond).symm
    · simpa using Ne.symm h

end Text

namespace Package

variable {name resource layer x : String} {names added : List String}

/-! ### Files beneath the base package -/

/-- A package that some layout gives to a new file of a project. -/
def Placed (base name : String) : Prop :=
  ∃ a style resource layer, name = packageFor a style base resource layer

namespace Placed

variable {base : String}

theorem exists_below (h : Placed base name) : ∃ below, name = base ++ "." ++ below := by
  obtain ⟨a, style, resource, layer, rfl⟩ := h
  exact ⟨_, ofPieces_cons base (layout_ne_nil a style _ layer)⟩

theorem ne_empty (h : Placed base name) : name ≠ "" := by
  obtain ⟨below, rfl⟩ := h.exists_below
  simp

theorem prefix_pieces (h : Placed base name) : pieces base <+: pieces name := by
  obtain ⟨below, rfl⟩ := h.exists_below
  rw [pieces_append]
  exact List.prefix_append _ _

end Placed

theorem pieces_base (hdeclared : ∀ n ∈ names, n ≠ "") (hbase : base names ≠ "") :
    pieces (base names) = shared names := by
  rw [base_of_declared hdeclared] at hbase ⊢
  apply pieces_commonPrefix
  intro hnil
  apply hbase
  rw [commonPrefix_eq, hnil]
  rfl

theorem base_cons_placed (hdeclared : ∀ n ∈ names, n ≠ "") (hbase : base names ≠ "")
    (h : Placed (base names) name) : base (name :: names) = base names := by
  have hne : names ≠ [] := by
    rintro rfl
    exact hbase rfl
  have hpieces := pieces_base hdeclared hbase
  have hshared : shared (name :: names) = shared names := by
    apply shared_eq (List.cons_ne_nil _ _)
    intro rs
    rw [List.forall_mem_cons, ← prefix_shared hne, iff_and_self, ← hpieces]
    exact fun hrs => hrs.trans h.prefix_pieces
  rw [base_of_declared (List.forall_mem_cons.mpr ⟨h.ne_empty, hdeclared⟩), commonPrefix_eq,
    hshared, ← hpieces, ofPieces_pieces]

theorem base_append_placed (hdeclared : ∀ n ∈ names, n ≠ "") (hbase : base names ≠ "")
    (h : ∀ n ∈ added, Placed (base names) n) :
    (∀ n ∈ added ++ names, n ≠ "") ∧ base (added ++ names) = base names := by
  induction added with
  | nil => exact ⟨hdeclared, rfl⟩
  | cons n added ih =>
    rw [List.forall_mem_cons] at h
    obtain ⟨hall, heq⟩ := ih h.2
    rw [List.cons_append, List.forall_mem_cons]
    refine ⟨⟨h.1.ne_empty, hall⟩, ?_⟩
    rw [base_cons_placed hall (heq ▸ hbase) (heq ▸ h.1), heq]

/-- Where all files declare packages, and have a base package, it is also that of the project with
any new files, each in the package of a layout. -/
theorem base_placed {files new all : List SourceFile}
    (hdeclared : ∀ f ∈ files, f.package ≠ "") (hbase : base (files.map (·.package)) ≠ "")
    (hnew : ∀ f ∈ new, ∃ a style resource layer,
      f.package = packageFor a style (base (files.map (·.package))) resource layer)
    (hall : all.Perm (files ++ new)) :
    base (all.map (·.package)) = base (files.map (·.package)) := by
  have hnames : (all.map (·.package)).Perm (new.map (·.package) ++ files.map (·.package)) := by
    rw [← List.map_append]
    exact (hall.trans List.perm_append_comm).map _
  rw [base_perm hnames]
  apply (base_append_placed (List.forall_mem_map.mpr hdeclared) hbase ?_).2
  exact List.forall_mem_map.mpr hnew

def fileIn (package : String) : SourceFile :=
  { path := package ++ ".java", package, className := "" }

/-- A point in the name of a resource only leads deeper, and so does a layer without a name. -/
theorem base_placed_shop :
    let files := [fileIn "shop.order", fileIn "shop.user"]
    let store := fileIn (packageFor .hexagonal none "shop" "Order" "repository")
    let bill := fileIn (packageFor .feature none "shop" "Pay.Bill" "")
    base (files.map (·.package)) = "shop" ∧
      store.package = "shop.application.port.out" ∧ bill.package = "shop.pay.Bill." ∧
      base ([bill, fileIn "shop.order", store, fileIn "shop.user"].map (·.package)) = "shop" := by
  intro files store bill
  have hbase : base (files.map (·.package)) = "shop" := by decide +kernel
  have hnew : ∀ f ∈ [store, bill], ∃ a style resource layer,
      f.package = packageFor a style (base (files.map (·.package))) resource layer := by
    rw [hbase, List.forall_mem_cons, List.forall_mem_singleton]
    exact ⟨⟨.hexagonal, none, "Order", "repository", rfl⟩, ⟨.feature, none, "Pay.Bill", "", rfl⟩⟩
  have hall : [bill, fileIn "shop.order", store, fileIn "shop.user"].Perm
      (files ++ [store, bill]) := by decide +kernel
  have hplaced := base_placed (by decide) (by rw [hbase]; decide) hnew hall
  exact ⟨hbase, by decide +kernel, by decide +kernel, hplaced.trans hbase⟩

/-! ### Names of segments -/

/-- What can stand between two points of a name, as an identifier does. -/
structure IsSegment (x : String) : Prop where
  ne_empty : x ≠ ""
  undotted : '.' ∉ x.toList

instance (x : String) : Decidable (IsSegment x) :=
  decidable_of_iff (x ≠ "" ∧ '.' ∉ x.toList) ⟨fun h => ⟨h.1, h.2⟩, fun h => ⟨h.1, h.2⟩⟩

/-- A name without empty segments. -/
def IsDotted (name : String) : Prop :=
  ∀ p ∈ pieces name, p ≠ ""

instance (name : String) : Decidable (IsDotted name) :=
  inferInstanceAs (Decidable (∀ p ∈ pieces name, p ≠ ""))

theorem IsDotted.ne_empty (h : IsDotted name) : name ≠ "" := by
  rintro rfl
  exact h "" (by decide) rfl

theorem isDotted_ofPieces {ps : List String} (hne : ps ≠ []) (h : ∀ p ∈ ps, IsSegment p) :
    IsDotted (ofPieces ps) := by
  rw [IsDotted, pieces_ofPieces hne fun p hp => (h p hp).undotted]
  exact fun p hp => (h p hp).ne_empty

/-! ### The base package -/

theorem isDotted_commonPrefix (hnames : ∀ n ∈ names, IsDotted n) (h : shared names ≠ []) :
    IsDotted (commonPrefix names) := by
  have hne : names ≠ [] := fun hnil => h (by rw [hnil]; rfl)
  obtain ⟨first, hfirst⟩ := List.exists_mem_of_ne_nil names hne
  have hstart := (prefix_shared hne).mp (List.prefix_refl (shared names)) first hfirst
  rw [IsDotted, pieces_commonPrefix h]
  exact fun p hp => hnames first hfirst p (hstart.subset hp)

theorem isDotted_outer (h : IsDotted name) : IsDotted (outer name) := by
  rw [outer]
  split
  · exact h
  · next hhead =>
    have hmem : ∀ p ∈ (pieces name).dropLast, p ∈ pieces name := fun p => List.mem_of_mem_dropLast
    apply isDotted_ofPieces
    · intro hnone
      exact hhead (by rw [hnone]; rfl)
    · exact fun p hp => ⟨h p (hmem p hp), notMem_pieces (hmem p hp)⟩

theorem base_eq_or (names : List String) :
    base names = commonPrefix (names.filter (· ≠ "")) ∨
      base names = outer (commonPrefix (names.filter (· ≠ ""))) := by
  by_cases hempty : "" ∈ names
  · exact .inr (base_of_undeclared hempty)
  · have hdeclared : ∀ n ∈ names, n ≠ "" := fun n hn heq => hempty (heq ▸ hn)
    have hfilter : names.filter (· ≠ "") = names := by simpa using hdeclared
    rw [hfilter]
    exact .inl (base_of_declared hdeclared)

/-- Some file declares a package, and all that are declared start with the same segment. -/
def HasBase (names : List String) : Prop :=
  (∃ n ∈ names, n ≠ "") ∧ Meet (names.filter (· ≠ ""))

theorem hasBase_iff (names : List String) :
    HasBase names ↔ shared (names.filter (· ≠ "")) ≠ [] := by
  by_cases hdeclared : names.filter (· ≠ "") = []
  · have hnone : ¬∃ n ∈ names, n ≠ "" := by simpa using hdeclared
    rw [HasBase, hdeclared]
    exact ⟨fun h => absurd h.1 hnone, fun h => absurd rfl h⟩
  · rw [HasBase, meet_iff hdeclared, and_iff_right]
    obtain ⟨n, hn⟩ := List.exists_mem_of_ne_nil _ hdeclared
    rw [List.mem_filter, decide_eq_true_eq] at hn
    exact ⟨n, hn⟩

theorem isDotted_base (hnames : ∀ n ∈ names, n = "" ∨ IsDotted n) (h : HasBase names) :
    IsDotted (base names) := by
  have hdeclared : ∀ n ∈ names.filter (· ≠ ""), IsDotted n := by
    intro n hn
    rw [List.mem_filter, decide_eq_true_eq] at hn
    exact (hnames n hn.1).resolve_left hn.2
  have hcommon := isDotted_commonPrefix hdeclared ((hasBase_iff names).mp h)
  rcases base_eq_or names with heq | heq
  · rw [heq]
    exact hcommon
  · rw [heq]
    exact isDotted_outer hcommon

theorem base_eq_empty (h : ¬ HasBase names) : base names = "" := by
  rw [hasBase_iff, not_not] at h
  rcases base_eq_or names with heq | heq
  · rw [heq, commonPrefix_eq, h]
    rfl
  · rw [heq, commonPrefix_eq, h]
    decide +kernel

/-! ### Layouts -/

theorem isSegment_resource (h : IsSegment resource) : IsSegment (resourceSegment resource) := by
  obtain ⟨c, cs, hcs⟩ := List.exists_cons_of_ne_nil (mt String.toList_eq_nil_iff.mp h.ne_empty)
  have hundotted := h.undotted
  rw [hcs, List.mem_cons, not_or] at hundotted
  constructor
  · intro hempty
    have hnil := congrArg String.toList hempty
    rw [resourceSegment, String.toList_ofList, hcs, Text.lowerFirst] at hnil
    exact Text.lower_ne_nil c (List.append_eq_nil_iff.mp hnil).1
  · rw [resourceSegment, String.toList_ofList, hcs, Text.lowerFirst, List.mem_append, not_or]
    exact ⟨Text.point_notMem_lower (Ne.symm hundotted.1), hundotted.2⟩

theorem isSegment_layout (hx : IsSegment x) (hlayer : IsSegment layer) (a : Architecture)
    (style : Option FeatureStyle) : ∀ p ∈ layout a style x layer, IsSegment p := by
  cases a with
  | layered | flat | unknown => simpa [layout] using hlayer
  | modular => simpa [layout, hx, hlayer] using (by decide : IsSegment "internal")
  | feature =>
    have hdto : IsSegment "dto" := by decide
    rw [layout, flatModuleLayout]
    split
    · split <;> simp [hx, hdto]
    · simp [hx, hlayer]
  | hexagonal =>
    rw [layout, hexagonalLayout]
    iterate 6 split; decide
    simpa using hlayer
  | clean =>
    rw [layout, cleanLayout]
    iterate 6 split; decide
    simpa using hlayer

theorem pieces_packageFor (hresource : IsSegment resource) (hlayer : IsSegment layer)
    (a : Architecture) (style : Option FeatureStyle) (around : String) :
    pieces (packageFor a style around resource layer) =
      pieces around ++ layout a style (resourceSegment resource) layer := by
  apply pieces_ofPieces_cons around (layout_ne_nil _ _ _ _)
  intro p hp
  exact (isSegment_layout (isSegment_resource hresource) hlayer a style p hp).undotted

theorem isDotted_packageFor (hresource : IsSegment resource) (hlayer : IsSegment layer)
    (a : Architecture) (style : Option FeatureStyle) {around : String} :
    IsDotted (packageFor a style around resource layer) ↔ IsDotted around := by
  have hlayout := isSegment_layout (isSegment_resource hresource) hlayer a style
  rw [IsDotted, pieces_packageFor hresource hlayer, List.forall_mem_append, IsDotted,
    and_iff_left fun p hp => (hlayout p hp).ne_empty]

/-- Where packages without empty segments are declared and meet, new files get such packages below
the base package. Everywhere else there is no base package, and theirs begin with a point. -/
theorem packageFor_dotted_iff (hnames : ∀ n ∈ names, n = "" ∨ IsDotted n)
    (hresource : IsSegment resource) (hlayer : IsSegment layer) (a : Architecture)
    (style : Option FeatureStyle) :
    let new := packageFor a style (base names) resource layer
    let below := layout a style (resourceSegment resource) layer
    (IsDotted new ∧ segments (base names) <+: segments new ↔ HasBase names) ∧
      (HasBase names → IsDotted (base names) ∧ segments new = segments (base names) ++ below) ∧
      (¬HasBase names → base names = "" ∧ IsDotted (ofPieces below) ∧
        new = "." ++ ofPieces below) := by
  intro new below
  have hdotted : IsDotted new ↔ IsDotted (base names) :=
    isDotted_packageFor hresource hlayer a style
  have hsegments (h : HasBase names) : segments new = segments (base names) ++ below := by
    have hbase := isDotted_base hnames h
    rw [segments, if_neg (hdotted.mpr hbase).ne_empty, segments, if_neg hbase.ne_empty]
    exact pieces_packageFor hresource hlayer a style _
  refine ⟨⟨fun h => ?_, fun h => ?_⟩, fun h => ⟨isDotted_base hnames h, hsegments h⟩, fun h => ?_⟩
  · by_contra hnone
    exact (hdotted.mp h.1).ne_empty (base_eq_empty hnone)
  · refine ⟨hdotted.mpr (isDotted_base hnames h), ?_⟩
    rw [hsegments h]
    exact List.prefix_append _ _
  · have hempty := base_eq_empty h
    refine ⟨hempty, ?_, ?_⟩
    · exact isDotted_ofPieces (layout_ne_nil _ _ _ _)
        (isSegment_layout (isSegment_resource hresource) hlayer a style)
    · change packageFor a style (base names) resource layer = _
      rw [hempty, packageFor, ofPieces_cons "" (layout_ne_nil _ _ _ _), String.empty_append]

theorem packageFor_dotted_shop :
    (∀ n ∈ ["shop.order", "", "shop.user"], n = "" ∨ IsDotted n) ∧ IsSegment "Order" ∧
      IsSegment "repository" ∧ base ["shop.order", "", "shop.user"] = "shop" ∧
      packageFor .hexagonal none "shop" "Order" "repository" = "shop.application.port.out" ∧
      IsDotted "shop.application.port.out" ∧
      segments "shop" <+: segments "shop.application.port.out" := by
  have hnames : ∀ n ∈ ["shop.order", "", "shop.user"], n = "" ∨ IsDotted n := by decide +kernel
  have hbase : base ["shop.order", "", "shop.user"] = "shop" := by decide +kernel
  have hnew : packageFor .hexagonal none "shop" "Order" "repository" =
      "shop.application.port.out" := by decide +kernel
  have hmeets : HasBase ["shop.order", "", "shop.user"] :=
    ⟨⟨"shop.order", by decide⟩, "shop", by decide +kernel⟩
  have horder : IsSegment "Order" := by decide
  have hrepository : IsSegment "repository" := by decide
  have hiff := (packageFor_dotted_iff hnames horder hrepository .hexagonal none).1
  rw [hbase, hnew] at hiff
  obtain ⟨hdotted, hstart⟩ := hiff.mpr hmeets
  exact ⟨hnames, horder, hrepository, hbase, hnew, hdotted, hstart⟩

/-- Packages that do not meet leave a new file with an empty first segment. -/
theorem packageFor_apart :
    (∀ n ∈ ["shop.order", "bank"], IsDotted n) ∧ IsSegment "User" ∧ IsSegment "service" ∧
      base ["shop.order", "bank"] = "" ∧
      packageFor .layered none (base ["shop.order", "bank"]) "User" "service" = ".service" ∧
      ¬IsDotted ".service" := by
  have hbase : base ["shop.order", "bank"] = "" := by decide +kernel
  refine ⟨by decide +kernel, by decide, by decide, hbase, ?_, by decide +kernel⟩
  rw [hbase]
  decide +kernel

end Package

end JavaProfile
