import JavaProfile.Proofs.Project.Reached
import JavaProfile.Proofs.Tree.Walking

/-!
Main and test files apart. Files are sorted by the root that they were found under, so a file is a
main file and a test file at once where one root leads into the other.
-/

namespace JavaProfile

theorem Category.ofHeader_ne_test (className : String) (annotations interfaces : List String) :
    ofHeader className annotations interfaces ≠ .test := by
  have hmarker (m : Marker) : m.category? ≠ some .test := by cases m <;> decide
  have hending : ∀ e ∈ endings, e.2 ≠ .test := by decide
  rw [ofHeader]
  split
  · next c hc =>
    rintro rfl
    obtain ⟨a, -, ha⟩ := List.exists_of_findSome?_eq_some hc
    exact hmarker _ ha
  · split
    · decide
    · intro h
      rw [ofClassName?] at h
      cases hfind : endings.find? fun e => e.1.any (Text.endsWith className ·) with
      | none =>
        rw [hfind] at h
        cases h
      | some e =>
        rw [hfind] at h
        exact hending e (List.mem_of_find?_eq_some hfind) h

theorem SourceFile.category_ofText (text path : String) (isTest : Bool) :
    (ofText text path isTest).category = .test ↔ isTest = true := by
  rw [ofText]
  cases isTest with
  | true => exact iff_of_true rfl rfl
  | false => exact iff_of_false (Category.ofHeader_ne_test _ _ _) Bool.false_ne_true

def Scan.inSet (s : Scan) : SourceSet → List SourceFile
  | .main => s.mainFiles
  | .test => s.testFiles

namespace Project

open WalkingTree

variable {τ : Type} [FileTree τ] {t : τ} {p : Project} {announces : Bool} {scan : Scan}

theorem scan_inSet (h : (p.scan t announces).result = .ok scan) (set : SourceSet) :
    ∃ entries, sourceEntries t (p.sourceRoot set) = .ok entries ∧
      scan.inSet set = entries.filterMap (source? t set) := by
  rw [scan_result, scanSet_result, scanSet_result] at h
  cases hmanifests : p.manifests t with
  | error e =>
    rw [hmanifests] at h
    cases h
  | ok manifests =>
    cases hmain : sourceEntries t (p.sourceRoot .main) with
    | error e =>
      rw [hmanifests, hmain] at h
      cases h
    | ok mainEntries =>
      cases htest : sourceEntries t (p.sourceRoot .test) with
      | error e =>
        rw [hmanifests, hmain, htest] at h
        cases h
      | ok testEntries =>
        rw [hmanifests, hmain, htest] at h
        cases h
        cases set with
        | main => exact ⟨mainEntries, hmain, rfl⟩
        | test => exact ⟨testEntries, htest, rfl⟩

theorem mem_walk_of_sourceEntries {root : Path} {entries : List FileEntry}
    (h : sourceEntries t root = .ok entries) {e : FileEntry} (he : e ∈ entries) :
    ∃ found, FileTree.walk t root.text = .ok found ∧ e ∈ found := by
  rw [sourceEntries] at h
  split at h
  · cases h
  · cases h
    cases he
  · rw [walkSources] at h
    cases hwalk : FileTree.walk t root.text with
    | error cause =>
      rw [hwalk] at h
      cases h
    | ok found =>
      rw [hwalk] at h
      cases h
      exact ⟨found, rfl, (List.mem_filter.mp he).1⟩

variable [WalkingTree τ]

theorem lies_of_scanned (ht : Sound t) (h : (p.scan t announces).result = .ok scan)
    {set : SourceSet} {f : SourceFile} (hf : f ∈ scan.inSet set) :
    LiesUnder t f.path (p.sourceRoot set).text ∧ (f.category = .test ↔ set = .test) := by
  obtain ⟨entries, hentries, hfiles⟩ := scan_inSet h set
  rw [hfiles] at hf
  obtain ⟨e, he, hsource⟩ := List.mem_filterMap.mp hf
  obtain ⟨text, -, rfl⟩ := Option.map_eq_some_iff.mp hsource
  obtain ⟨found, hwalk, hfound⟩ := mem_walk_of_sourceEntries hentries he
  obtain ⟨d, hhome, hspots⟩ := spots_of_walk ht hwalk
  obtain ⟨k, hspot, hbeneath⟩ := hspots e hfound
  refine ⟨⟨k, d, hspot, hhome, hbeneath⟩, ?_⟩
  rw [SourceFile.category_ofText, decide_eq_true_eq]

theorem not_lies_of_apart (ht : Sound t) (h : (p.scan t announces).result = .ok scan)
    (hapart : ∀ d d', home? t (p.sourceRoot .main).text = some d →
      home? t (p.sourceRoot .test).text = some d' →
      d ≠ d' ∧ d.isBeneath d' = false ∧ d'.isBeneath d = false) :
    ∀ f ∈ scan.mainFiles, ¬ LiesUnder t f.path (p.sourceRoot .test).text := by
  rintro f hf ⟨k, d', hspot, hhome', hbeneath'⟩
  obtain ⟨⟨k', d, hspot', hhome, hbeneath⟩, -⟩ :=
    lies_of_scanned ht h (show f ∈ scan.inSet .main from hf)
  obtain rfl : k = k' := Option.some.inj (hspot.symm.trans hspot')
  obtain ⟨hne, hnot, hnot'⟩ := hapart d d' hhome hhome'
  rcases Path.eq_or_isBeneath hbeneath hbeneath' with heq | hin | hin
  · exact hne heq
  · rw [hnot] at hin
    cases hin
  · rw [hnot'] at hin
    cases hin

/-- Each file lies under the root of its kind, and those of the test root are the tests. Main and
test files are apart, and all that lies under the test root is a test, just where no main file lies
there; and none does where neither root leads into the other. -/
theorem sets_apart_iff (ht : Sound t) (h : (p.scan t announces).result = .ok scan) :
    (∀ set, ∀ f ∈ scan.inSet set, LiesUnder t f.path (p.sourceRoot set).text ∧
      (f.category = .test ↔ set = .test)) ∧
    (((∀ f ∈ scan.mainFiles, ∀ g ∈ scan.testFiles, f.path ≠ g.path) ∧
        ∀ f ∈ scan.mainFiles ++ scan.testFiles,
          LiesUnder t f.path (p.sourceRoot .test).text → f.category = .test) ↔
      ∀ f ∈ scan.mainFiles, ¬ LiesUnder t f.path (p.sourceRoot .test).text) ∧
    ((∀ d d', home? t (p.sourceRoot .main).text = some d →
        home? t (p.sourceRoot .test).text = some d' →
        d ≠ d' ∧ d.isBeneath d' = false ∧ d'.isBeneath d = false) →
      ∀ f ∈ scan.mainFiles, ¬ LiesUnder t f.path (p.sourceRoot .test).text) := by
  have hlies (set : SourceSet) (f : SourceFile) (hf : f ∈ scan.inSet set) :=
    lies_of_scanned (p := p) ht h hf
  refine ⟨hlies, ⟨?_, ?_⟩, not_lies_of_apart ht h⟩
  · rintro ⟨-, htests⟩ f hf hunder
    have hset := (hlies .main f hf).2.mp (htests f (List.mem_append_left _ hf) hunder)
    cases hset
  · intro hnone
    refine ⟨fun f hf g hg hpath => ?_, fun f hf hunder => ?_⟩
    · exact hnone f hf (hpath ▸ (hlies .test g hg).1)
    · rcases List.mem_append.mp hf with hmain | htest
      · exact absurd hunder (hnone f hmain)
      · exact (hlies .test f htest).2.mpr rfl

theorem sets_apart_by_default :
    let shop : Project := { directory := ⟨.single, ["shop"]⟩ }
    let t := MemoryTree.run [.write 0 "/shop/src/main/java/A.java" "class A {}",
      .write 0 "/shop/src/test/java/ATest.java" "class ATest {}"]
    ∃ scan, (shop.scan t false).result = .ok scan ∧
      scan.mainFiles.map (·.path) = ["/shop/src/main/java/A.java"] ∧
      scan.testFiles.map (·.path) = ["/shop/src/test/java/ATest.java"] ∧
      ∀ f ∈ scan.mainFiles, ¬ LiesUnder t f.path (shop.sourceRoot .test).text := by
  intro shop t
  have hclosed : t.Closed := MemoryTree.closed_run _
  obtain ⟨manifests, hscan⟩ := scan_of_tidy hclosed.tidy hclosed.distinct shop
  have hmain : shop.filesBeneath t .main =
      [SourceFile.ofText "class A {}" "/shop/src/main/java/A.java" false] :=
    filesBeneath_of_sorted
      [(⟨.single, ["shop", "src", "main", "java", "A.java"]⟩, "class A {}")]
      (by decide +kernel) (List.pairwise_singleton _ _)
  have htest : shop.filesBeneath t .test =
      [SourceFile.ofText "class ATest {}" "/shop/src/test/java/ATest.java" true] :=
    filesBeneath_of_sorted
      [(⟨.single, ["shop", "src", "test", "java", "ATest.java"]⟩, "class ATest {}")]
      (by decide +kernel) (List.pairwise_singleton _ _)
  refine ⟨_, hscan false, by rw [hmain]; rfl, by rw [htest]; rfl, ?_⟩
  apply (sets_apart_iff hclosed (hscan false)).2.2
  rintro d d' ⟨⟩ ⟨⟩
  decide +kernel

theorem sets_not_apart :
    let shop : Project := { directory := ⟨.single, ["shop"]⟩, roots := { main := "src" } }
    let t := MemoryTree.run
      [.write 0 "/shop/src/test/java/OrderController.java" "class OrderController {}"]
    ∃ scan, (shop.scan t false).result = .ok scan ∧
      scan.mainFiles.map (fun f => (f.path, f.category)) =
        [("/shop/src/test/java/OrderController.java", .controller)] ∧
      scan.testFiles.map (·.path) = ["/shop/src/test/java/OrderController.java"] ∧
      LiesUnder t "/shop/src/test/java/OrderController.java" (shop.sourceRoot .test).text := by
  intro shop t
  have hclosed : t.Closed := MemoryTree.closed_run _
  obtain ⟨manifests, hscan⟩ := scan_of_tidy hclosed.tidy hclosed.distinct shop
  have hfiles (set : SourceSet) : shop.filesBeneath t set = [SourceFile.ofText
      "class OrderController {}" "/shop/src/test/java/OrderController.java" (set = .test)] := by
    apply filesBeneath_of_sorted
      [(⟨.single, ["shop", "src", "test", "java", "OrderController.java"]⟩,
        "class OrderController {}")] _ (List.pairwise_singleton _ _)
    cases set <;> decide +kernel
  refine ⟨_, hscan false, ?_, ?_, _, _, rfl, rfl, by decide +kernel⟩
  · change (shop.filesBeneath t .main).map _ = _
    rw [hfiles]
    decide +kernel
  · change (shop.filesBeneath t .test).map _ = _
    rw [hfiles]
    rfl

end Project

end JavaProfile
