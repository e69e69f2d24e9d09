import JavaProfile.Project.Detect
import JavaProfile.Proofs.Architecture.Module
import JavaProfile.Proofs.Package.Base

/-!
Scans that differ in the order of their files. The order says which file is the first of several or
the last, and nothing else in a profile depends on it.
-/

namespace JavaProfile

/-- The same files in another order. -/
structure Scan.Reordered (s s' : Scan) : Prop where
  mainFiles : s.mainFiles.Perm s'.mainFiles
  testFiles : s.testFiles.Perm s'.testFiles
  basePackage : s.basePackage = s'.basePackage
  roots : s.roots = s'.roots

/-- The same values, except where the first or the last of several files decides: the base entity
and its place, two styles, the package of the handler and the order of exceptions. -/
structure Profile.SameButOrder (p q : Profile) : Prop where
  rest : { p with
    baseEntity := q.baseEntity
    swaggerStyle := q.swaggerStyle
    validationStyle := q.validationStyle
    exceptions := { q.exceptions with hasGlobalHandler := p.exceptions.hasGlobalHandler } } = q
  baseEntity : p.baseEntity.isSome = q.baseEntity.isSome
  customExceptions : p.exceptions.customExceptions.Perm q.exceptions.customExceptions

theorem mostFrequent?_perm {names names' : List String} (h : names.Perm names') :
    (Scan.mostFrequent? names).map names.count = (Scan.mostFrequent? names').map names'.count := by
  cases names with
  | nil => rw [h.nil_eq]
  | cons a l =>
    cases names' with
    | nil => exact absurd h.eq_nil (by simp)
    | cons b l' =>
      have hcount : (a :: l).count = (b :: l').count := funext fun n => h.count_eq n
      rw [hcount]
      change some ((b :: l').count (greatestFrom (a :: l).count a l)) =
        some ((b :: l').count (greatestFrom (b :: l').count b l'))
      rw [hcount]
      have hmem := greatestFrom_mem (b :: l').count a l
      have hmem' := greatestFrom_mem (b :: l').count b l'
      congr 1
      apply le_antisymm
      · exact le_greatestFrom (fun n => (b :: l').count n) b l' _ (h.mem_iff.mp hmem)
      · exact le_greatestFrom (fun n => (b :: l').count n) a l _ (h.mem_iff.mpr hmem')

/-! ### What the first file shows -/

theorem SwaggerStyle.ofFile?_ne_absent {f : SourceFile} {style : SwaggerStyle}
    (h : ofFile? f = some style) : style ≠ .absent := by
  rintro rfl
  rw [ofFile?, Option.or_eq_some_iff] at h
  rcases h with h | ⟨-, h⟩
  · obtain ⟨name, -, hname⟩ := List.exists_of_findSome?_eq_some h
    rw [ofImport?] at hname
    split at hname <;> [cases hname; split at hname <;> cases hname]
  · obtain ⟨m, -, hm⟩ := List.exists_of_findSome?_eq_some h
    rw [ofMarker?] at hm
    split at hm <;> [cases hm; split at hm <;> cases hm]

theorem ValidationStyle.ofFile?_ne_absent {f : SourceFile} {style : ValidationStyle}
    (h : ofFile? f = some style) : style ≠ .absent := by
  rintro rfl
  rw [ofFile?, Option.or_eq_some_iff] at h
  rcases h with h | ⟨-, h⟩
  · obtain ⟨name, -, hname⟩ := List.exists_of_findSome?_eq_some h
    rw [ofImport?] at hname
    split at hname <;> [cases hname; split at hname <;> cases hname]
  · split at h <;> cases h

theorem findSome?_getD_ne {β γ : Type} {l : List β} {show? : β → Option γ} {absent : γ}
    (h : ∀ x c, show? x = some c → c ≠ absent) :
    (l.findSome? show?).getD absent ≠ absent ↔ l.any fun x => (show? x).isSome := by
  rw [← List.isSome_findSome?]
  cases hfound : l.findSome? show? with
  | none => simp
  | some c =>
    obtain ⟨x, -, hx⟩ := List.exists_of_findSome?_eq_some hfound
    simpa using h x c hx

theorem Scan.swaggerStyle_ne_absent (s : Scan) :
    s.swaggerStyle ≠ .absent ↔ s.mainFiles.any fun f => (SwaggerStyle.ofFile? f).isSome :=
  findSome?_getD_ne fun _ _ => SwaggerStyle.ofFile?_ne_absent

theorem Scan.validationStyle_ne_absent (s : Scan) :
    s.validationStyle ≠ .absent ↔ s.mainFiles.any fun f => (ValidationStyle.ofFile? f).isSome :=
  findSome?_getD_ne fun _ _ => ValidationStyle.ofFile?_ne_absent

theorem Scan.isSome_baseEntity? (s : Scan) : s.baseEntity?.isSome =
    ((mostFrequent? s.entitySuperclasses).map s.entitySuperclasses.count).any fun n =>
      2 ≤ n ∨ s.entities.length ≤ smallEntitySet := by
  rw [baseEntity?]
  cases mostFrequent? s.entitySuperclasses with
  | none => rfl
  | some name =>
    change Option.isSome (if _ then _ else none) = decide _
    split
    · next hfound =>
      rw [decide_eq_true hfound]
      cases s.mainFiles.find? (·.className = name) <;> rfl
    · next hfound => rw [decide_eq_false hfound, Option.isSome_none]

namespace Scan.Reordered

variable {s s' : Scan} (h : s.Reordered s')

include h

/-! ### Architecture -/

section Scores

variable {α : Type} [Add α] [Sub α] [Mul α] [Div α] [NatCast α] [LT α] [DecidableLT α]

theorem size : s.size = s'.size :=
  h.mainFiles.length_eq

theorem isEmpty : s.mainFiles = [] ↔ s'.mainFiles = [] := by
  rw [← List.isEmpty_iff, ← List.isEmpty_iff, h.mainFiles.isEmpty_eq]

theorem within (package : String) : (s.within package).Perm (s'.within package) :=
  h.mainFiles.filter _

theorem filesOf (m : String) : (s.filesOf m).Perm (s'.filesOf m) := by
  rw [Scan.filesOf, Scan.filesOf, modulePackage, modulePackage, h.basePackage]
  exact h.within _

theorem packages : s.packages.Perm s'.packages :=
  eraseDups_perm ((h.mainFiles.map _).filter _)

theorem featureModules : s.featureModules = s'.featureModules := by
  rw [Scan.featureModules, Scan.featureModules, h.basePackage]
  split
  · rfl
  · exact mergeSort_texts (eraseDups_perm (h.mainFiles.filterMap _))

theorem filesInModules (modules : List String) :
    s.filesInModules modules = s'.filesInModules modules :=
  (List.Perm.flatMap_left modules fun m _ => h.filesOf m).length_eq

theorem flatCount (modules : List String) : s.flatCount modules = s'.flatCount modules := by
  apply List.Perm.length_eq
  apply List.Perm.flatMap_left
  intro m _
  rw [modulePackage, modulePackage, h.basePackage]
  exact (h.filesOf m).filter _

theorem nestedCount (modules : List String) : s.nestedCount modules = s'.nestedCount modules := by
  apply List.Perm.length_eq
  apply List.Perm.flatMap_left
  intro m _
  rw [modulePackage, modulePackage, h.basePackage]
  exact (h.filesOf m).filter _

theorem featureStyle (modules : List String) :
    s.featureStyle modules = s'.featureStyle modules := by
  rw [Scan.featureStyle, Scan.featureStyle, h.flatCount, h.nestedCount]

theorem partsFound (parts : List String) : s.partsFound parts = s'.partsFound parts := by
  rw [Scan.partsFound, Scan.partsFound]
  simp only [h.packages.any_eq]

omit [Sub α] in
theorem layeredScore : (s.layeredScore : α) = s'.layeredScore := by
  have hlayer (l : String) : (s.filesOfLayer l).Perm (s'.filesOfLayer l) := by
    rw [filesOfLayer, filesOfLayer, h.basePackage]
    exact h.within _
  have hfound : s.layersFound = s'.layersFound := by
    rw [layersFound, layersFound]
    simp only [(hlayer _).isEmpty_eq]
  have hfiles : s.filesInLayers = s'.filesInLayers :=
    (List.Perm.flatMap_left layerPackages fun l _ => hlayer l).length_eq
  rw [Scan.layeredScore, Scan.layeredScore, layerCoverage, layerCoverage, h.size, hfound, hfiles]

theorem featureScore : (s.featureScore : α) = s'.featureScore := by
  have hdiverse : s.isDiverse = s'.isDiverse := by
    funext m
    rw [isDiverse, isDiverse, (eraseDups_perm ((h.filesOf m).map _)).length_eq]
  have hcommon : s.hasCommon = s'.hasCommon := by
    rw [hasCommon, hasCommon, h.basePackage, h.mainFiles.any_eq]
  rw [Scan.featureScore, Scan.featureScore]
  dsimp only
  rw [h.featureModules, h.basePackage, h.size, h.filesInModules, hdiverse, hcommon]

theorem score (a : Architecture) : (s.score a : α) = s'.score a := by
  cases a with
  | layered => exact h.layeredScore
  | feature => exact h.featureScore
  | hexagonal =>
    change s.hexagonalScore = s'.hexagonalScore
    rw [hexagonalScore, hexagonalScore, h.partsFound, h.size]
  | clean =>
    change s.cleanScore = s'.cleanScore
    rw [cleanScore, cleanScore, h.partsFound, h.partsFound, h.size]
  | modular =>
    change s.modularScore = s'.modularScore
    rw [modularScore, modularScore, h.partsFound, h.size]
  | flat =>
    change s.flatScore = s'.flatScore
    rw [flatScore, flatScore, h.packages.length_eq, h.size]
  | unknown => rfl

theorem decision : (Decision.ofScan s : Decision α) = Decision.ofScan s' := by
  have hscore : (s.score : Architecture → α) = s'.score := funext h.score
  rw [Decision.ofScan, Decision.ofScan, scores, scores, hscore, h.featureModules, h.featureStyle]
  simp only [h.isEmpty]

end Scores

/-! ### Conventions -/

theorem ofCategory (c : Category) : (s.ofCategory c).Perm (s'.ofCategory c) :=
  h.mainFiles.filter _

theorem dtoNaming : s.dtoNaming = s'.dtoNaming := by
  have hcount (naming : DtoNaming) : s.dtoCount naming = s'.dtoCount naming :=
    (h.ofCategory .dto).countP_eq _
  rw [Scan.dtoNaming, Scan.dtoNaming]
  simp only [hcount]

theorem controllerSuffix : s.controllerSuffix = s'.controllerSuffix := by
  have hcount (ending : String) : s.controllerCount ending = s'.controllerCount ending :=
    (h.ofCategory .controller).countP_eq _
  rw [Scan.controllerSuffix, Scan.controllerSuffix, hcount, hcount]

theorem keyType : s.keyType = s'.keyType := by
  rw [Scan.keyType, Scan.keyType, entities, entities]
  simp only [← List.isEmpty_iff, (h.ofCategory .entity).isEmpty_eq, (h.ofCategory .entity).any_eq]

theorem importsAny (fragment : String) : s.importsAny fragment = s'.importsAny fragment :=
  h.mainFiles.any_eq

theorem marksAny (m : Marker) : s.marksAny m = s'.marksAny m :=
  h.mainFiles.any_eq

theorem mapper : s.mapper = s'.mapper := by
  rw [Scan.mapper, Scan.mapper]
  simp only [h.marksAny, h.importsAny]

theorem lombok : s.lombok = s'.lombok := by
  rw [Scan.lombok, Scan.lombok]
  simp only [h.marksAny]

theorem database : s.database = s'.database := by
  have hdatabases : s.databases = s'.databases := by
    rw [databases, databases]
    simp only [h.mainFiles.any_eq]
  rw [Scan.database, Scan.database, hdatabases]

theorem testSetup : s.testSetup = s'.testSetup := by
  have hmirrored : s.mirroredTests = s'.mirroredTests := by
    rw [mirroredTests, mirroredTests, h.testFiles.countP_eq]
    simp only [h.mainFiles.any_eq]
  rw [Scan.testSetup, Scan.testSetup]
  simp only [testsImport, testsMirrorMain, h.testFiles.any_eq, h.testFiles.isEmpty_eq,
    h.mainFiles.isEmpty_eq, h.testFiles.length_eq, hmirrored]

theorem entitySuperclasses : s.entitySuperclasses.Perm s'.entitySuperclasses :=
  ((h.ofCategory .entity).map _).filter _

theorem baseEntity? : s.baseEntity?.isSome = s'.baseEntity?.isSome := by
  rw [isSome_baseEntity?, isSome_baseEntity?, mostFrequent?_perm h.entitySuperclasses, entities,
    entities, (h.ofCategory .entity).length_eq]

theorem swaggerStyle : s.swaggerStyle ≠ .absent ↔ s'.swaggerStyle ≠ .absent := by
  rw [swaggerStyle_ne_absent, swaggerStyle_ne_absent, h.mainFiles.any_eq]

theorem validationStyle : s.validationStyle ≠ .absent ↔ s'.validationStyle ≠ .absent := by
  rw [validationStyle_ne_absent, validationStyle_ne_absent, h.mainFiles.any_eq]

theorem globalHandlers : s.globalHandlers.Perm s'.globalHandlers :=
  (h.ofCategory .exception).filter _

theorem customExceptions : s.customExceptions.Perm s'.customExceptions :=
  ((h.ofCategory .exception).filter _).map _

theorem profile (directory : Path) (now : Timestamp) :
    (s.profile directory now).SameButOrder (s'.profile directory now) where
  rest := by
    simp only [Scan.profile, Scan.exceptionHandling, h.decision, h.basePackage, h.roots,
      h.dtoNaming, h.controllerSuffix, h.keyType, h.mapper, h.lombok, h.database, h.testSetup,
      h.swaggerStyle, h.validationStyle, h.globalHandlers.isEmpty_eq]
  baseEntity := h.baseEntity?
  customExceptions := h.customExceptions

end Scan.Reordered

/-- Whatever the order of main and test files: the base package is the same, and so are all scores
of architectures and the choice among them, and all of a profile but for what the first or the last
of several files decides. -/
theorem Scan.order_irrelevant (s : Scan) {mainFiles testFiles : List SourceFile}
    (hmain : s.mainFiles.Perm mainFiles) (htests : s.testFiles.Perm testFiles)
    (α : Type) [Add α] [Sub α] [Mul α] [Div α] [NatCast α] [LT α] [DecidableLT α]
    (directory : Path) (now : Timestamp) :
    Package.base (mainFiles.map (·.package)) = Package.base (s.mainFiles.map (·.package)) ∧
      (∀ a, ({ s with mainFiles, testFiles }.score a : α) = s.score a) ∧
      (Decision.ofScan { s with mainFiles, testFiles } : Decision α) = Decision.ofScan s ∧
      ({ s with mainFiles, testFiles }.profile directory now).SameButOrder
        (s.profile directory now) := by
  have h : Reordered { s with mainFiles, testFiles } s := ⟨hmain.symm, htests.symm, rfl, rfl⟩
  exact ⟨Package.base_perm (hmain.symm.map _), h.score, h.decision, h.profile directory now⟩

/-- Two controllers with documentation of different ages. -/
def Scan.documented : Scan :=
  .ofFiles
    [{ path := "src/main/java/shop/users/Users.java", package := "shop.users", className := "Users",
       category := .controller, imports := ["org.springdoc.core.annotations.ParameterObject"] },
     { path := "src/main/java/shop/orders/Orders.java", package := "shop.orders",
       className := "Orders", category := .controller, imports := ["io.swagger.annotations.Api"] }]
    [] {} {}

theorem Scan.order_irrelevant_documented :
    documented.mainFiles.Perm documented.mainFiles.reverse ∧
      documented.testFiles.Perm [] ∧
      { documented with mainFiles := documented.mainFiles.reverse }.swaggerStyle ≠
        documented.swaggerStyle ∧
      Package.base (documented.mainFiles.reverse.map (·.package)) = "shop" ∧
      (Decision.ofScan { documented with mainFiles := documented.mainFiles.reverse } :
        Decision Float) = Decision.ofScan documented ∧
      ({ documented with mainFiles := documented.mainFiles.reverse, testFiles := [] }.profile
        ⟨.single, ["shop"]⟩ .first).SameButOrder
          (documented.profile ⟨.single, ["shop"]⟩ .first) := by
  have hmain : documented.mainFiles.Perm documented.mainFiles.reverse :=
    (List.reverse_perm _).symm
  have htests : documented.testFiles.Perm [] := .nil
  obtain ⟨hbase, -, hdecision, hprofile⟩ :=
    documented.order_irrelevant hmain htests Float ⟨.single, ["shop"]⟩ .first
  refine ⟨hmain, htests, by decide +kernel, ?_, hdecision, hprofile⟩
  rw [hbase]
  decide +kernel

end JavaProfile
