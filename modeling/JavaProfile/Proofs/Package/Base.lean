import Mathlib.Data.List.Nodup
import Mathlib.Data.List.Perm.Basic
import Mathlib.Data.Nat.Basic
import JavaProfile.Proofs.Greatest
import JavaProfile.Proofs.Package.Name

/-!
The base package of a project as the longest name that all its packages start with, and where some
file declares no package as the name around the longest one that the others start with.
-/

namespace JavaProfile

namespace Package

variable {name around : String} {names names' ps qs : List String}

/-! ### Enclosing packages -/

theorem pieces_take {n : ℕ} (hn : 0 < n) :
    pieces (ofPieces ((pieces name).take n)) = (pieces name).take n := by
  apply pieces_ofPieces
  · simp [pieces_ne_nil, Nat.pos_iff_ne_zero.mp hn]
  · intro p hp
    exact notMem_pieces (List.mem_of_mem_take hp)

theorem mem_enclosing : around ∈ enclosing name ↔ pieces around <+: pieces name := by
  rw [enclosing_eq]
  simp only [List.mem_map, List.mem_range]
  constructor
  · rintro ⟨n, -, rfl⟩
    rw [pieces_take n.succ_pos]
    exact List.take_prefix _ _
  · intro h
    have hpos := List.length_pos_iff.mpr (pieces_ne_nil around)
    have hle := h.length_le
    refine ⟨(pieces around).length - 1, by omega, ?_⟩
    rw [Nat.sub_add_cancel hpos, ← List.prefix_iff_eq_take.mp h, ofPieces_pieces]

theorem nodup_enclosing (name : String) : (enclosing name).Nodup := by
  rw [enclosing_eq]
  apply List.Nodup.map_on ?_ List.nodup_range
  intro m hm n hn h
  rw [List.mem_range] at hm hn
  have hlength := congrArg (fun name => (pieces name).length) h
  simp only [pieces_take (Nat.succ_pos _), List.length_take] at hlength
  omega

/-! ### What names have in common -/

theorem prefix_commonPieces (as bs : List String) :
    ps <+: commonPieces as bs ↔ ps <+: as ∧ ps <+: bs := by
  induction as generalizing ps bs with
  | nil =>
    rw [commonPieces.eq_def]
    simp +contextual [List.prefix_nil]
  | cons a as ih =>
    cases bs with
    | nil => simp +contextual [commonPieces, List.prefix_nil]
    | cons b bs =>
      cases ps with
      | nil => simp
      | cons p ps =>
        rw [commonPieces]
        split
        · next heq => simp [List.cons_prefix_cons, ih, heq]; tauto
        · next hne =>
          simp only [List.prefix_nil, List.cons_prefix_cons, reduceCtorEq, false_iff]
          rintro ⟨⟨rfl, -⟩, rfl, -⟩
          exact hne rfl

theorem commonPieces_append (ps : List String) {as bs : List String} (h : as.head? ≠ bs.head?) :
    commonPieces (ps ++ as) (ps ++ bs) = ps := by
  induction ps with
  | nil =>
    cases as with
    | nil => rfl
    | cons a as =>
      cases bs with
      | nil => rfl
      | cons b bs =>
        have hne : a ≠ b := by simpa using h
        simp [commonPieces, hne]
  | cons p ps ih => simp [commonPieces, ih]

/-- The pieces that all names start with. -/
def shared : List String → List String
  | [] => []
  | name :: names => names.foldl (fun shared n => commonPieces shared (pieces n)) (pieces name)

theorem commonPrefix_eq (names : List String) : commonPrefix names = ofPieces (shared names) := by
  cases names <;> rfl

theorem prefix_shared (hne : names ≠ []) : ps <+: shared names ↔ ∀ n ∈ names, ps <+: pieces n := by
  have fold (start : List String) (names : List String) :
      ps <+: names.foldl (fun shared n => commonPieces shared (pieces n)) start ↔
        ps <+: start ∧ ∀ n ∈ names, ps <+: pieces n := by
    induction names generalizing start with
    | nil => simp
    | cons n names ih =>
      rw [List.foldl_cons, ih, prefix_commonPieces, List.forall_mem_cons, and_assoc]
  cases names with
  | nil => exact absurd rfl hne
  | cons name names => rw [shared, fold, List.forall_mem_cons]

theorem eq_of_prefixes (h : ∀ rs, rs <+: ps ↔ rs <+: qs) : ps = qs := by
  have hps := (h ps).mp List.prefix_rfl
  have hqs := (h qs).mpr List.prefix_rfl
  exact hps.eq_of_length (le_antisymm hps.length_le hqs.length_le)

theorem shared_eq (hne : names ≠ []) (h : ∀ rs, rs <+: ps ↔ ∀ n ∈ names, rs <+: pieces n) :
    shared names = ps :=
  eq_of_prefixes fun rs => (prefix_shared hne).trans (h rs).symm

theorem shared_congr (h : ∀ n, n ∈ names ↔ n ∈ names') : shared names = shared names' := by
  by_cases hne' : names' = []
  · have hne : names = [] := by
      rw [List.eq_nil_iff_forall_not_mem]
      simp [h, hne']
    rw [hne, hne']
  · have hne : names ≠ [] := by
      rintro rfl
      apply hne'
      rw [List.eq_nil_iff_forall_not_mem]
      simp [← h]
    apply shared_eq hne
    intro rs
    simp only [prefix_shared hne', h]

theorem notMem_shared {p : String} (h : p ∈ shared names) : '.' ∉ p.toList := by
  cases names with
  | nil => cases h
  | cons name names =>
    have hshared := (prefix_shared (by simp)).mp (List.prefix_refl (shared (name :: names)))
    exact notMem_pieces ((hshared name (by simp)).subset h)

theorem commonPrefix_congr (h : ∀ n, n ∈ names ↔ n ∈ names') :
    commonPrefix names = commonPrefix names' := by
  rw [commonPrefix_eq, commonPrefix_eq, shared_congr h]

/-! ### The base package -/

theorem count_held (names : List String) (name : String) :
    (names.flatMap enclosing).count name = names.countP fun n => name ∈ enclosing n := by
  induction names with
  | nil => rfl
  | cons n names ih =>
    rw [List.flatMap_cons, List.count_append, ih, List.countP_cons,
      (nodup_enclosing n).count, Nat.add_comm]
    simp

theorem mem_universal (hne : names ≠ []) :
    name ∈ universal names.length names ↔ pieces name <+: shared names := by
  rw [universal, List.mem_filter, decide_eq_true_eq, count_held, List.countP_eq_length,
    prefix_shared hne]
  simp only [decide_eq_true_eq, mem_enclosing]
  constructor
  · exact And.right
  · intro h
    obtain ⟨n, names, rfl⟩ := List.exists_cons_of_ne_nil hne
    refine ⟨?_, h⟩
    simpa [mem_enclosing] using h n (by simp)

theorem universal_short {total : ℕ} (h : names.length < total) : universal total names = [] := by
  rw [universal, List.filter_eq_nil_iff]
  intro name _
  have hle : names.countP (fun n => name ∈ enclosing n) ≤ names.length := List.countP_le_length
  rw [decide_eq_true_eq, count_held]
  omega

theorem deepest?_cons (name : String) (names : List String) :
    deepest? (name :: names) = some (greatestFrom depth name names) :=
  rfl

theorem pieces_commonPrefix (h : shared names ≠ []) :
    pieces (commonPrefix names) = shared names := by
  rw [commonPrefix_eq, pieces_ofPieces h fun _ => notMem_shared]

theorem commonPrefix_mem_universal (hne : names ≠ []) (h : shared names ≠ []) :
    commonPrefix names ∈ universal names.length names := by
  rw [mem_universal hne, pieces_commonPrefix h]

theorem deepest?_universal (hne : names ≠ []) :
    deepest? (universal names.length names) =
      if shared names = [] then none else some (commonPrefix names) := by
  cases huniversal : universal names.length names with
  | nil =>
    split
    · rfl
    · next hshared =>
      have hmem := commonPrefix_mem_universal hne hshared
      rw [huniversal] at hmem
      cases hmem
  | cons u us =>
    -- What all names share is one of the candidates, and none of them is deeper.
    have hgreatest := le_greatestFrom depth u us
    have hmem := greatestFrom_mem depth u us
    rw [← huniversal] at hgreatest hmem
    rw [deepest?_cons]
    generalize greatestFrom depth u us = b at hgreatest hmem
    have hb := (mem_universal hne).mp hmem
    have hshared : shared names ≠ [] := by
      intro hnil
      rw [hnil, List.prefix_nil] at hb
      exact pieces_ne_nil _ hb
    have hdepth := hgreatest _ (commonPrefix_mem_universal hne hshared)
    have hlength := length_pieces (commonPrefix names)
    rw [pieces_commonPrefix hshared] at hlength
    rw [if_neg hshared]
    congr 1
    apply pieces_injective
    rw [pieces_commonPrefix hshared]
    apply hb.eq_of_length_le
    rw [length_pieces]
    omega

/-- Where every file declares a package, the base package is what the packages have in common. -/
theorem base_of_declared (h : ∀ n ∈ names, n ≠ "") : base names = commonPrefix names := by
  by_cases hne : names = []
  · subst hne
    rfl
  · have hdeclared : names.filter (· ≠ "") = names := by simpa using h
    rw [base, if_neg hne]
    dsimp only
    rw [hdeclared, deepest?_universal hne]
    by_cases hshared : shared names = []
    · rw [if_pos hshared, commonPrefix_eq, hshared]
      rfl
    · rw [if_neg hshared]

theorem base_of_undeclared (h : "" ∈ names) :
    base names = outer (commonPrefix (names.filter (· ≠ ""))) := by
  have hshort : (names.filter (· ≠ "")).length < names.length :=
    List.length_filter_lt_length_iff_exists.mpr ⟨"", h, by simp⟩
  rw [base, if_neg (List.ne_nil_of_mem h)]
  dsimp only
  rw [universal_short hshort]
  rfl

theorem base_congr (h : ∀ n, n ∈ names ↔ n ∈ names') : base names = base names' := by
  by_cases hempty : "" ∈ names
  · rw [base_of_undeclared hempty, base_of_undeclared ((h "").mp hempty)]
    congr 1
    apply commonPrefix_congr
    simp [h]
  · have hdeclared : ∀ n ∈ names, n ≠ "" := fun n hn heq => hempty (heq ▸ hn)
    rw [base_of_declared hdeclared, base_of_declared fun n hn => hdeclared n ((h n).mpr hn),
      commonPrefix_congr h]

theorem base_perm (h : names.Perm names') : base names = base names' :=
  base_congr fun _ => h.mem_iff

/-! ### The deepest package around all -/

/-- All names start with the same segment. -/
def Meet (names : List String) : Prop :=
  ∃ first, ∀ n ∈ names, (pieces n).head? = some first

structure IsDeepest (names : List String) (name : String) : Prop where
  longest (h : Meet names) (ps : List String) :
    ps <+: pieces name ↔ ∀ n ∈ names, ps <+: pieces n
  apart (h : ¬ Meet names) : name = ""

theorem meet_iff (hne : names ≠ []) : Meet names ↔ shared names ≠ [] := by
  have hsingle (first : String) :
      [first] <+: shared names ↔ ∀ n ∈ names, (pieces n).head? = some first := by
    simp [prefix_shared hne, List.singleton_prefix_iff_head?_eq_some]
  constructor
  · rintro ⟨first, hfirst⟩ hnone
    have hprefix := (hsingle first).mpr hfirst
    simp [hnone] at hprefix
  · intro hshared
    obtain ⟨first, rest, heq⟩ := List.exists_cons_of_ne_nil hshared
    refine ⟨first, (hsingle first).mp ?_⟩
    simp [heq]

theorem commonPrefix_deepest (hne : names ≠ []) : IsDeepest names (commonPrefix names) := by
  constructor
  · intro hmeet ps
    rw [pieces_commonPrefix ((meet_iff hne).mp hmeet), prefix_shared hne]
  · intro hapart
    rw [meet_iff hne, not_not] at hapart
    rw [commonPrefix_eq, hapart]
    rfl

/-- Where all files declare packages, the base is the deepest one around them. Where some file
declares none, it is the package around what the others share, unless that is the default package.
Neither the order of files nor files of one package more change it. -/
theorem base_deepest (hne : names ≠ []) :
    ((∀ n ∈ names, n ≠ "") → base names = commonPrefix names ∧ IsDeepest names (base names)) ∧
      ("" ∈ names →
        let common := commonPrefix (names.filter (· ≠ ""))
        let around := ofPieces (pieces common).dropLast
        base names = if around = "" then common else around) ∧
      ∀ names', (∀ n, n ∈ names' ↔ n ∈ names) → base names' = base names := by
  refine ⟨fun hdeclared => ?_, base_of_undeclared, fun names' => base_congr⟩
  rw [base_of_declared hdeclared]
  exact ⟨rfl, commonPrefix_deepest hne⟩

theorem base_deepest_shop :
    base ["shop.order.api", "shop.order.core"] = "shop.order" ∧
      base ["shop.order.api", "", "shop.order.core"] = "shop" ∧
      base ["shop.order.core", "shop.order.api", "shop.order.core"] = "shop.order" := by
  obtain ⟨hdeclared, -, hsame⟩ :=
    @base_deepest ["shop.order.api", "shop.order.core"] (by decide)
  obtain ⟨-, hundeclared, -⟩ :=
    @base_deepest ["shop.order.api", "", "shop.order.core"] (by decide)
  have hbase : base ["shop.order.api", "shop.order.core"] = "shop.order" :=
    (hdeclared (by decide)).1.trans (by decide +kernel)
  refine ⟨hbase, (hundeclared (by decide)).trans (by decide +kernel), ?_⟩
  rw [hsame _ (by simp [or_comm]), hbase]

end Package

end JavaProfile
