import JavaProfile.Proofs.Architecture.Module
import JavaProfile.Proofs.Architecture.Ranked
import JavaProfile.Proofs.Project.Reached
import JavaProfile.Tool.Dispatch

/-!
The scores of a project beside the style that is reported for it. Both come from one scan; the style
is chosen before the scores are rounded.
-/

namespace JavaProfile

open Binary64

def Scan.reportedScore (s : Scan) (a : Architecture) : Float :=
  roundPlaces 4 (s.score a)

theorem Scan.reportedScore_le {s : Scan} {a b : Architecture}
    (h : (s.score a : Float) ≤ s.score b) : s.reportedScore a ≤ s.reportedScore b :=
  roundPlaces_le 4 (s.unsigned_score a) (s.unsigned_score b) (s.isShare_score b).2 h

namespace Tool

open Json Work

/-- Arguments that ask for a project with its scores, past the cache. -/
structure AsksScores (args : Arguments) (path : String) : Prop where
  project : requireArgument args "project_path" = .ok (.string (.text path))
  uncached : flag args "use_cache" true = false
  scored : flag args "include_scores" false = true

/-- What such a call answers. -/
def scoredFields (scan : Scan) (project : Path) (now : Timestamp) : Json.Fields :=
  put (Profile.members.map (·.write (scan.profile project now))) "scores" (scoresJson scan)

theorem architecture_scoredFields (scan : Scan) (project : Path) (now : Timestamp) :
    field? (scoredFields scan project now) "architecture" =
      some (.string (label (Decision.ofScan scan : Decision Float).architecture)) := by
  rw [scoredFields, field?_put_other _ _ (by decide)]
  rfl

theorem scores_scoredFields (scan : Scan) (project : Path) (now : Timestamp) :
    ∃ scores, field? (scoredFields scan project now) "scores" = some (.object scores) ∧
      ∀ a ∈ Architecture.ranking,
        field? scores (label a : String) = some (.double (scan.reportedScore a)) := by
  refine ⟨_, field?_put_self _ _ _, ?_⟩
  simp only [Architecture.ranking, List.forall_mem_cons, List.not_mem_nil, false_implies,
    forall_const]
  exact ⟨rfl, rfl, rfl, rfl, rfl, rfl, trivial⟩

variable {τ : Type} [FileTree τ] {args : Arguments} {path : String}

theorem profileWithScores_result (h : AsksScores args path) (project : Path) (s : Session τ) :
    (runs (profileWithScores project args) s).1 =
      ((⟨project, s.settings.roots⟩ : Project).scan s.tree false).result.map
        fun scan => (scan.profile project s.now, some scan) := by
  obtain ⟨s', -, hdetect⟩ := (⟨project, s.settings.roots⟩ : Project).detectWithScan_runs s
  rw [Project.scan_announces] at hdetect
  rw [profileWithScores, runs_bind_of_ok (runs_get s), h.uncached, h.scored]
  dsimp only
  rw [if_neg Bool.false_ne_true, runs_bind, hdetect]
  cases (Project.scan ⟨project, s.settings.roots⟩ s.tree false).result <;> rfl

theorem detectProfile_result (h : AsksScores args path) (s : Session τ) :
    (runs (detectProfile args) s).1 =
      match FileTree.isDirectory s.tree (path : Path).text with
      | .error e => .error (.tree e)
      | .ok false => .error (.notDirectory path)
      | .ok true => ((⟨path, s.settings.roots⟩ : Project).scan s.tree false).result.map
          fun scan => .object (scoredFields scan path s.now) := by
  have hscores := profileWithScores_result h path s
  have hpath : runs (Work.ofExcept (requireArgument args "project_path")) s =
      (.ok (.string (.text path)), s) := by
    rw [h.project, runs_ofExcept]
  have hproject : runs (Work.ofExcept (pathOf (.string (.text path)))) s =
      (.ok (path : Path), s) := rfl
  rw [detectProfile, runs_bind_of_ok hpath, runs_bind_of_ok hproject, runs_bind, runs_onTree]
  cases FileTree.isDirectory s.tree (path : Path).text with
  | error e => rfl
  | ok found =>
    cases found with
    | false => rfl
    | true =>
      dsimp only [Except.mapError]
      rw [if_pos rfl, runs_bind]
      rcases hruns : runs (profileWithScores path args) s with ⟨result, s'⟩
      rw [hruns] at hscores
      dsimp only at hscores
      rw [hscores]
      cases (Project.scan ⟨path, s.settings.roots⟩ s.tree false).result <;> rfl

theorem detectProfile_ok_iff (h : AsksScores args path) (s : Session τ) (answer : Json) :
    (runs (detectProfile args) s).1 = .ok answer ↔
      FileTree.isDirectory s.tree (path : Path).text = .ok true ∧
        ∃ scan, ((⟨path, s.settings.roots⟩ : Project).scan s.tree false).result = .ok scan ∧
          answer = .object (scoredFields scan path s.now) := by
  rw [detectProfile_result h]
  cases FileTree.isDirectory s.tree (path : Path).text with
  | error e => simp
  | ok found =>
    cases found with
    | false => simp
    | true =>
      cases (Project.scan ⟨path, s.settings.roots⟩ s.tree false).result with
      | error e => simp [Except.map]
      | ok scan => simp [Except.map, eq_comm]

/-- A project that can be scanned is answered with a style and with the scores of all styles. Of one
with main files the style is the first of those with the greatest score, and no style is reported
with a greater one. One without is layered, whatever scores are reported. -/
theorem scores_explain (h : AsksScores args path) (s : Session τ) :
    let p : Project := ⟨path, s.settings.roots⟩
    (FileTree.isDirectory s.tree p.directory.text = .ok true → p.Scannable s.tree →
      ∃ answer, (runs (detectProfile args) s).1 = .ok answer) ∧
    ∀ answer, (runs (detectProfile args) s).1 = .ok answer →
      ∃ scan fields scores style, (p.scan s.tree false).result = .ok scan ∧
        answer = .object fields ∧
        field? fields "architecture" = some (.string (label (style : Architecture))) ∧
        field? fields "scores" = some (.object scores) ∧
        (∀ a ∈ Architecture.ranking,
          field? scores (label a : String) = some (.double (scan.reportedScore a))) ∧
        (scan.mainFiles = [] → style = .layered) ∧
        (scan.mainFiles ≠ [] →
          (∃ before after, Architecture.ranking = before ++ style :: after ∧
            ∀ a ∈ before, (scan.score a : Float) < scan.score style) ∧
          ∀ a ∈ Architecture.ranking, (scan.score a : Float) ≤ scan.score style ∧
            scan.reportedScore a ≤ scan.reportedScore style) := by
  intro p
  refine ⟨fun hdirectory hscannable => ?_, fun answer hanswer => ?_⟩
  · obtain ⟨scan, hscan⟩ := hscannable.scanned
    exact ⟨_, (detectProfile_ok_iff h s _).mpr ⟨hdirectory, scan, hscan, rfl⟩⟩
  · obtain ⟨-, scan, hscan, rfl⟩ := (detectProfile_ok_iff h s answer).mp hanswer
    obtain ⟨scores, hscores, hreported⟩ := scores_scoredFields scan path s.now
    refine ⟨scan, _, scores, _, hscan, rfl, architecture_scoredFields scan path s.now, hscores,
      hreported, fun hnone => ?_, fun hfiles => ?_⟩
    · rw [Decision.ofScan, if_pos hnone]
    · rw [Decision.ofScan_architecture hfiles]
      obtain ⟨before, after, heq, hbefore, hle⟩ := Decision.best_split scan.unsigned_score
      exact ⟨⟨before, after, heq, hbefore⟩, fun a ha =>
        ⟨hle a ha, Scan.reportedScore_le (hle a ha)⟩⟩

/-! ### Projects in memory -/

open MemoryTree

def scoredArguments (path : String) : Arguments :=
  [("project_path", .string path), ("use_cache", .bool false), ("include_scores", .bool true)]

theorem asksScores (h : path ≠ "") : AsksScores (scoredArguments path) path where
  project := by
    have hset : (Json.string path).isSet = true := decide_eq_true fun heq =>
      h (JsonString.text.inj heq)
    have hargument : argument? (scoredArguments path) "project_path" = some (.string path) :=
      (Option.filter_eq_some_iff ..).mpr ⟨rfl, hset⟩
    rw [requireArgument, hargument]
  uncached := rfl
  scored := rfl

theorem scores_explain_single :
    let t := MemoryTree.run [.write 0 "/shop/src/main/java/A.java" "class A {}"]
    let answer := (runs (detectProfile (scoredArguments "/shop")) { tree := t, clock := 0.0 }).1
    ∃ fields scores style x, answer = .ok (.object fields) ∧
      field? fields "architecture" = some (.string (label (style : Architecture))) ∧
      field? fields "scores" = some (.object scores) ∧ style ∈ Architecture.ranking ∧
      field? scores (label style : String) = some (.double x) ∧
        ∀ a ∈ Architecture.ranking, ∃ y, field? scores (label a : String) = some (.double y) ∧
          y ≤ x := by
  intro t answer
  let shop : Project := ⟨"/shop", {}⟩
  have hclosed : t.Closed := closed_run _
  obtain ⟨hanswered, hexplained⟩ :=
    scores_explain (asksScores (show "/shop" ≠ "" by decide)) { tree := t, clock := 0.0 }
  obtain ⟨v, hv⟩ := hanswered (by decide +kernel) (Project.scannable_of_memory shop t)
  obtain ⟨scan, fields, scores, style, hscan, rfl, hstyle, hscores, hreported, -, hgreatest⟩ :=
    hexplained v hv
  obtain ⟨manifests, hfiles⟩ := Project.scan_of_tidy hclosed.tidy hclosed.distinct shop
  have hmain : shop.filesBeneath t .main =
      [SourceFile.ofText "class A {}" "/shop/src/main/java/A.java" false] :=
    Project.filesBeneath_of_sorted
      [(⟨.single, ["shop", "src", "main", "java", "A.java"]⟩, "class A {}")]
      (by decide +kernel) (List.pairwise_singleton _ _)
  change (shop.scan t false).result = _ at hscan
  rw [hfiles, hmain] at hscan
  cases hscan
  obtain ⟨⟨before, after, heq, -⟩, hle⟩ := hgreatest (List.cons_ne_nil _ _)
  have hmem : style ∈ Architecture.ranking := by
    rw [heq]
    exact List.mem_append_right _ List.mem_cons_self
  exact ⟨fields, scores, style, _, hv, hstyle, hscores, hmem, hreported style hmem,
    fun a ha => ⟨_, hreported a ha, (hle a ha).2⟩⟩

theorem detectProfile_of_files {t : MemoryTree} (ht : t.Tidy)
    (hdistinct : (t.files.map Prod.fst).Nodup) {files : List SourceFile} (h : AsksScores args path)
    (hdirectory : t.hasDirectory (key (path : Path).text) = true)
    (hmain : (⟨path, {}⟩ : Project).filesBeneath t .main = files)
    (htest : (⟨path, {}⟩ : Project).filesBeneath t .test = []) :
    ∃ fields scores,
      (runs (detectProfile args) { tree := t, clock := 0.0 }).1 = .ok (.object fields) ∧
      field? fields "architecture" = some (.string (label
        (Decision.ofScan (Scan.ofFiles files [] {} {}) : Decision Float).architecture)) ∧
      field? fields "scores" = some (.object scores) ∧ ∀ a ∈ Architecture.ranking,
        field? scores (label a : String) =
          some (.double ((Scan.ofFiles files [] {} {}).reportedScore a)) := by
  obtain ⟨manifests, hscan⟩ := Project.scan_of_tidy ht hdistinct ⟨path, {}⟩
  rw [hmain, htest] at hscan
  let s : Session MemoryTree := { tree := t, clock := 0.0 }
  obtain ⟨scores, hscores, hreported⟩ :=
    scores_scoredFields (Scan.ofFiles files [] {} manifests) path s.now
  refine ⟨_, scores, (detectProfile_ok_iff h s _).mpr
    ⟨(isDirectory_eq _ _).trans (congrArg Except.ok hdirectory), _, hscan false, rfl⟩,
    architecture_scoredFields _ _ _, hscores, fun a ha => ?_⟩
  rw [hreported a ha]
  cases a <;> rfl

/-- Packages and names of classes in a project where the scores of two styles are close. -/
def closeClasses : List (List String × String) :=
  [(["shop"], "Shop"), (["shop", "items", "internal"], "Item"),
   (["shop", "items", "internal"], "ItemController"), (["shop", "items", "internal"], "Price"),
   (["shop", "items", "internal"], "Stock"), (["shop", "orders", "api"], "Cart"),
   (["shop", "orders", "api"], "Line"), (["shop", "orders", "api"], "Order"),
   (["shop", "orders", "api"], "OrderController"), (["shop", "users"], "Role"),
   (["shop", "users"], "User")]

def closeSources : List (Path × String) :=
  closeClasses.map fun (package, name) =>
    (⟨.single, ["shop", "src", "main", "java"] ++ package ++ [name ++ ".java"]⟩,
      "package " ++ String.intercalate "." package ++ ";")

def closeTree : MemoryTree where
  files := closeSources.map fun (k, text) => (k, ⟨text, .int 0⟩)
  directories := (closeSources.flatMap fun f => f.1.parents).eraseDups

def closeFiles : List SourceFile :=
  closeClasses.map fun (package, name) =>
    { path := "/shop/src/main/java/" ++ String.intercalate "/" package ++ "/" ++ name ++ ".java"
      package := String.intercalate "." package
      className := name
      category := Category.ofHeader name [] [] }

def closeScan : Scan := Scan.ofFiles closeFiles [] {} {}

theorem tidy_closeTree : closeTree.Tidy where
  keyed := by decide +kernel
  around := by decide +kernel

theorem closeFiles_eq :
    closeSources.map (fun f => SourceFile.ofText f.2 f.1.text false) = closeFiles := by
  decide +kernel

theorem featureModules_closeScan : closeScan.featureModules = ["items", "orders", "users"] :=
  Scan.featureModules_of_sorted (by decide +kernel) (by decide +kernel) (by decide +kernel)

/-- The scores before they are rounded. -/
def closeScores : Architecture → Float
  | .layered => 0.3
  | .feature => 0.7766528925619833
  | .modular => 0.7766666666666666
  | _ => 0.0

theorem score_closeScan (a : Architecture) : closeScan.score a = closeScores a := by
  cases a with
  | feature =>
    change closeScan.featureScore = _
    rw [Scan.featureScore, featureModules_closeScan]
    decide +kernel
  | layered => decide +kernel
  | hexagonal => decide +kernel
  | clean => decide +kernel
  | modular => decide +kernel
  | flat => decide +kernel
  | unknown => rfl

theorem architecture_closeScan :
    (Decision.ofScan closeScan : Decision Float).architecture = .modular := by
  have hbest : Decision.best closeScores = .modular := by decide +kernel
  obtain ⟨h, -⟩ := Decision.architecture_of_scores (List.cons_ne_nil _ _) score_closeScan
    (by decide +kernel)
  exact h.trans hbest

/-- Without main files the style is layered although flat is reported with a greater score. Of two
styles that are reported with one score, the later had the greater one before it was rounded. -/
theorem scores_not_explained :
    (∃ fields scores, (runs (detectProfile (scoredArguments "/shop"))
        { tree := MemoryTree.run [.makeDirectories "/shop"], clock := 0.0 }).1 =
          .ok (.object fields) ∧
      field? fields "architecture" = some (.string "layered") ∧
      field? fields "scores" = some (.object scores) ∧
      field? scores "layered" = some (.double 0.0) ∧ field? scores "flat" = some (.double 0.7)) ∧
    ∃ fields scores, (runs (detectProfile (scoredArguments "/shop"))
        { tree := closeTree, clock := 0.0 }).1 = .ok (.object fields) ∧
      field? fields "architecture" = some (.string "modular") ∧
      field? fields "scores" = some (.object scores) ∧
      field? scores "feature" = some (.double 0.7767) ∧
      field? scores "modular" = some (.double 0.7767) := by
  have hasks : AsksScores (scoredArguments "/shop") "/shop" := asksScores (by decide)
  have hdouble {x y : Float} (h : x = y) : some (Json.double x) = some (Json.double y) := by
    rw [h]
  constructor
  · have hclosed := closed_run [.makeDirectories "/shop"]
    obtain ⟨fields, scores, hanswer, hstyle, hscores, hreported⟩ :=
      detectProfile_of_files hclosed.tidy hclosed.distinct hasks (by decide +kernel)
        (Project.filesBeneath_of_sorted [] (by decide +kernel) .nil)
        (Project.filesBeneath_of_sorted [] (by decide +kernel) .nil)
    exact ⟨fields, scores, hanswer, hstyle, hscores,
      (hreported .layered (by decide)).trans (hdouble (by decide +kernel)),
      (hreported .flat (by decide)).trans (hdouble (by decide +kernel))⟩
  · obtain ⟨fields, scores, hanswer, hstyle, hscores, hreported⟩ :=
      detectProfile_of_files tidy_closeTree (by decide +kernel) hasks (by decide +kernel)
        ((Project.filesBeneath_of_sorted closeSources (by decide +kernel)
          (by decide +kernel)).trans closeFiles_eq)
        (Project.filesBeneath_of_sorted [] (by decide +kernel) .nil)
    rw [← closeScan, architecture_closeScan] at hstyle
    have hclose (a : Architecture) (ha : a ∈ Architecture.ranking) :
        field? scores (label a : String) = some (.double (roundPlaces 4 (closeScores a))) := by
      rw [hreported a ha, ← closeScan, Scan.reportedScore, score_closeScan]
    exact ⟨fields, scores, hanswer, hstyle, hscores,
      (hclose .feature (by decide)).trans (hdouble (by decide +kernel)),
      (hclose .modular (by decide)).trans (hdouble (by decide +kernel))⟩

end Tool

end JavaProfile
