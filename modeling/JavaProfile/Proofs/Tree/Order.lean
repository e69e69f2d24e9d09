import Mathlib.Data.List.Lex
import Mathlib.Data.List.Nodup
import Mathlib.Data.Prod.Lex
import Mathlib.Data.String.Basic
import JavaProfile.Tree.Disk.Walk

/-!
Two orders of the ways to files: by their names alone, and with the files of each directory before
those of the directories in it. They are one order where, in every directory, files are named before
the directories that hold others.
-/

namespace JavaProfile

/-! ### Sorting by two orders -/

section Sorting

variable {α : Type} {le le' : α → α → Bool}

theorem mergeSort_eq (htrans : ∀ a b c, le a b → le b c → le a c)
    (htotal : ∀ a b, le a b || le b a) {l sorted : List α}
    (hanti : ∀ a ∈ l, ∀ b ∈ l, le a b → le b a → a = b) (hperm : sorted.Perm l)
    (hsorted : sorted.Pairwise fun a b => le a b) : l.mergeSort le = sorted := by
  refine @List.Perm.eq_of_pairwise _ (fun a b => le a b = true) _ _ ?_ ?_ ?_
    ((List.mergeSort_perm l le).trans hperm.symm)
  · intro a b ha hb
    exact hanti a (List.mem_mergeSort.mp ha) b (hperm.mem_iff.mp hb)
  · exact List.pairwise_mergeSort htrans htotal l
  · exact hsorted

/-- A list is sorted the same by two orders that agree on its elements, and by no others. -/
theorem mergeSort_eq_iff (htrans : ∀ a b c, le a b → le b c → le a c)
    (htotal : ∀ a b, le a b || le b a) (htrans' : ∀ a b c, le' a b → le' b c → le' a c)
    (htotal' : ∀ a b, le' a b || le' b a) {l : List α}
    (hanti : ∀ a ∈ l, ∀ b ∈ l, le a b → le b a → a = b)
    (hanti' : ∀ a ∈ l, ∀ b ∈ l, le' a b → le' b a → a = b) :
    l.mergeSort le = l.mergeSort le' ↔ ∀ a ∈ l, ∀ b ∈ l, le a b → le' a b := by
  have hsorted := List.pairwise_mergeSort htrans htotal l
  have hsorted' := List.pairwise_mergeSort htrans' htotal' l
  constructor
  · intro heq
    rw [← heq] at hsorted'
    have hrefl (a : α) : le' a a = true := by simpa using htotal' a a
    -- An element that stands behind another and yet is not after it is the other.
    have hagree : (l.mergeSort le).Pairwise fun a b => (le a b → le' a b) ∧ (le b a → le' b a) := by
      apply (hsorted.and hsorted').imp_of_mem
      rintro a b ha hb ⟨hab, hab'⟩
      refine ⟨fun _ => hab', fun hba => ?_⟩
      rw [hanti a (List.mem_mergeSort.mp ha) b (List.mem_mergeSort.mp hb) hab hba]
      exact hrefl b
    intro a ha b hb
    have hall := List.Pairwise.forall_of_forall_of_flip
      (fun a _ => ⟨fun _ => hrefl a, fun _ => hrefl a⟩) hagree (hagree.imp And.symm)
    exact (hall (List.mem_mergeSort.mpr ha) (List.mem_mergeSort.mpr hb)).1
  · intro hagree
    symm
    apply mergeSort_eq htrans' htotal' hanti' (List.mergeSort_perm l le)
    apply hsorted.imp_of_mem
    intro a b ha hb
    exact hagree a (List.mem_mergeSort.mp ha) b (List.mem_mergeSort.mp hb)

theorem eq_of_sorted_entries {κ β : Type} (le : κ → κ → Bool) {xs ys : List (κ × β)}
    (hxs : xs.Pairwise fun a b => le a.1 b.1) (hys : ys.Pairwise fun a b => le a.1 b.1)
    (hdistinct : (xs.map Prod.fst).Nodup) (hdistinct' : (ys.map Prod.fst).Nodup)
    (hmem : ∀ x, x ∈ xs ↔ x ∈ ys)
    (hanti : ∀ a ∈ xs, ∀ b ∈ xs, le a.1 b.1 → le b.1 a.1 → a.1 = b.1) : xs = ys := by
  have hperm : xs.Perm ys :=
    (List.perm_ext_iff_of_nodup hdistinct.of_map hdistinct'.of_map).mpr hmem
  refine @List.Perm.eq_of_pairwise _ (fun a b => le a.1 b.1 = true) _ _ ?_ hxs hys hperm
  intro a b ha hb h h'
  have hb := (hmem b).mpr hb
  exact List.inj_on_of_nodup_map hdistinct ha hb (hanti a ha b hb h h')

end Sorting

/-! ### The order of paths -/

theorem Path.ordered_trans (p q r : Path) (h : p.ordered q) (h' : q.ordered r) : p.ordered r := by
  simp only [ordered, Bool.not_eq_true', decide_eq_false_iff_not, not_lt] at h h' ⊢
  exact h.trans h'

theorem Path.ordered_total (p q : Path) : (p.ordered q || q.ordered p) = true := by
  simp only [ordered, Bool.or_eq_true, Bool.not_eq_true', decide_eq_false_iff_not, not_lt]
  exact le_total _ _

theorem Path.sorted_mergeSort {β : Type} (l : List (Path × β)) :
    (l.mergeSort fun a b => a.1.ordered b.1).Pairwise fun a b => a.1.ordered b.1 := by
  apply List.pairwise_mergeSort
  · exact fun a b c => ordered_trans a.1 b.1 c.1
  · exact fun a b => ordered_total a.1 b.1

namespace DiskTree

/-! ### The order of a walk -/

/-- The names of a way, each after whether the way goes on behind it. -/
def levels : List String → List (Bool ×ₗ String)
  | [] => []
  | name :: rest => toLex (!rest.isEmpty, name) :: levels rest

variable {x y : List String}

theorem levels_inj (h : levels x = levels y) : x = y := by
  induction x generalizing y with
  | nil =>
    cases y with
    | nil => rfl
    | cons b bs => cases h
  | cons a as ih =>
    cases y with
    | nil => cases h
    | cons b bs =>
      obtain ⟨hname, hrest⟩ := List.cons.inj h
      have hname : (!as.isEmpty, a) = (!bs.isEmpty, b) := toLex.injective hname
      rw [(Prod.mk.inj hname).2, ih hrest]

theorem levels_cons_lt {a b : String} {as bs : List String} :
    levels (a :: as) < levels (b :: bs) ↔
      (as = [] ∧ bs ≠ []) ∨
        ((as = [] ↔ bs = []) ∧ (a < b ∨ a = b ∧ levels as < levels bs)) := by
  rw [levels, levels, List.cons_lt_cons_iff, Prod.Lex.toLex_lt_toLex, toLex_inj, Prod.mk.injEq]
  cases as <;> cases bs <;> simp

/-- The order of a walk compares texts, with the kinds of nodes in front of their names. -/
theorem comesBefore_iff : comesBefore x y = true ↔ ¬ levels y < levels x := by
  fun_induction comesBefore x y with
  | case1 y => simp [levels]
  | case2 a as => simp [levels]
  | case3 a as b bs hlast =>
    rw [levels_cons_lt, hlast.1, hlast.2, decide_eq_true_iff, ← not_lt]
    simp
  | case4 a b bs hlast =>
    have hbs : bs ≠ [] := fun h => hlast ⟨rfl, h⟩
    rw [levels_cons_lt]
    simp [hbs]
  | case5 a as b has hlast =>
    rw [levels_cons_lt]
    simp [has]
  | case6 as b bs hlast has hbs ih =>
    rw [levels_cons_lt, ih]
    simp [has, hbs]
  | case7 a as b bs hlast has hbs hne =>
    rw [levels_cons_lt, decide_eq_true_iff, ← not_lt]
    simp [has, hbs, Ne.symm hne]

theorem comesBefore_trans (x y z : List String) (h : comesBefore x y) (h' : comesBefore y z) :
    comesBefore x z := by
  rw [comesBefore_iff, not_lt] at h h' ⊢
  exact h.trans h'

theorem comesBefore_total (x y : List String) : (comesBefore x y || comesBefore y x) = true := by
  rw [Bool.or_eq_true, comesBefore_iff, comesBefore_iff, not_lt, not_lt]
  exact le_total _ _

theorem comesBefore_antisymm (h : comesBefore x y) (h' : comesBefore y x) : x = y := by
  rw [comesBefore_iff, not_lt] at h h'
  exact levels_inj (le_antisymm h h')

theorem levels_append_lt (way : List String) (b a : String) {as : List String} (has : as ≠ []) :
    levels (way ++ [b]) < levels (way ++ a :: as) := by
  induction way with
  | nil => exact levels_cons_lt.mpr (.inl ⟨rfl, has⟩)
  | cons d way ih => exact levels_cons_lt.mpr (.inr ⟨by simp, .inr ⟨rfl, ih⟩⟩)

theorem not_levels_lt (hle : ¬ y < x)
    (hfirst : ∀ way a as b, x = way ++ a :: as → as ≠ [] → y = way ++ [b] → b < a) :
    ¬ levels y < levels x := by
  induction x generalizing y with
  | nil => simp [levels]
  | cons a as ih =>
    cases y with
    | nil => exact absurd (List.nil_lt_cons a as) hle
    | cons b bs =>
      rw [List.cons_lt_cons_iff, not_or, not_and] at hle
      rw [levels_cons_lt]
      rintro (⟨rfl, has⟩ | ⟨-, hba | ⟨rfl, hlevels⟩⟩)
      · exact hle.1 (hfirst [] a as b rfl has rfl)
      · exact hle.1 hba
      · refine ih (hle.2 rfl) ?_ hlevels
        rintro way c cs d rfl hcs rfl
        exact hfirst (b :: way) c cs d rfl hcs rfl

end DiskTree

/-! ### Agreement -/

open DiskTree

/-- In every directory, files are named before the directories on the ways to others. -/
def FilesFirst (ways : List (List String)) : Prop :=
  ∀ way a as b, way ++ a :: as ∈ ways → as ≠ [] → way ++ [b] ∈ ways → b < a

/-- The orders agree on ways to files, none of which leads through another, if and only if files are
named first. -/
theorem filesFirst_iff {ways : List (List String)}
    (hapart : ∀ x ∈ ways, ∀ y ∈ ways, x <+: y → x = y) :
    FilesFirst ways ↔ ∀ x ∈ ways, ∀ y ∈ ways, ¬ y < x → comesBefore x y := by
  constructor
  · intro h x hx y hy hle
    apply comesBefore_iff.mpr
    apply not_levels_lt hle
    rintro way a as b rfl has rfl
    exact h way a as b hx has hy
  · intro h way a as b hx has hy
    by_contra hba
    rcases lt_or_eq_of_le (not_lt.mp hba) with hab | rfl
    · have hlt : way ++ a :: as < way ++ [b] := List.append_left_lt (.rel hab)
      exact comesBefore_iff.mp (h _ hx _ hy hlt.not_gt) (levels_append_lt way b a has)
    · have heq := hapart _ hy _ hx (by simp)
      exact has (by simpa using heq)

/-- The order of ways by their names. -/
def byNames (x y : List String) : Bool :=
  !decide (y < x)

theorem byNames_trans (x y z : List String) (h : byNames x y) (h' : byNames y z) :
    byNames x z := by
  simp only [byNames, Bool.not_eq_true', decide_eq_false_iff_not, not_lt] at h h' ⊢
  exact h.trans h'

theorem byNames_total (x y : List String) : (byNames x y || byNames y x) = true := by
  simp only [byNames, Bool.or_eq_true, Bool.not_eq_true', decide_eq_false_iff_not, not_lt]
  exact le_total _ _

theorem byNames_antisymm {x y : List String} (h : byNames x y) (h' : byNames y x) : x = y := by
  simp only [byNames, Bool.not_eq_true', decide_eq_false_iff_not, not_lt] at h h'
  exact le_antisymm h h'

theorem mergeSort_ways_iff {γ : Type} {l : List (List String × γ)}
    (hdistinct : (l.map Prod.fst).Nodup)
    (hapart : ∀ x ∈ l.map Prod.fst, ∀ y ∈ l.map Prod.fst, x <+: y → x = y) :
    (l.mergeSort fun a b => byNames a.1 b.1) = (l.mergeSort fun a b => comesBefore a.1 b.1) ↔
      FilesFirst (l.map Prod.fst) := by
  have hsame : ∀ a ∈ l, ∀ b ∈ l, a.1 = b.1 → a = b := fun a ha b hb =>
    List.inj_on_of_nodup_map hdistinct ha hb
  rw [mergeSort_eq_iff (fun a b c => byNames_trans a.1 b.1 c.1) (fun a b => byNames_total a.1 b.1)
    (fun a b c => comesBefore_trans a.1 b.1 c.1) (fun a b => comesBefore_total a.1 b.1)
    (fun a ha b hb h h' => hsame a ha b hb (byNames_antisymm h h'))
    (fun a ha b hb h h' => hsame a ha b hb (comesBefore_antisymm h h')), filesFirst_iff hapart]
  simp only [List.forall_mem_map, byNames, Bool.not_eq_true', decide_eq_false_iff_not]

end JavaProfile
