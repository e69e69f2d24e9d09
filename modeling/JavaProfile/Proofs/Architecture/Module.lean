import Mathlib.Data.List.Nodup
import Mathlib.Data.List.Perm.Basic
import JavaProfile.Architecture.Module

/-!
Feature modules of a scan: which they are, each of them once, and how many files they hold.
-/

namespace JavaProfile

section Distinct

variable {α : Type} [BEq α] [LawfulBEq α]

theorem nodup_eraseDups (l : List α) : l.eraseDups.Nodup := by
  -- what is left behind the first element is shorter, but no part of the list
  induction hn : l.length using Nat.strongRecOn generalizing l with
  | ind n ih =>
    cases l with
    | nil => exact List.nodup_nil
    | cons a l =>
      rw [List.eraseDups_cons, List.nodup_cons]
      constructor
      · simp [List.mem_eraseDups]
      · apply ih _ _ _ rfl
        have hle := List.length_filter_le (fun b => !b == a) l
        simp only [List.length_cons] at hn
        omega

theorem eraseDups_perm {l l' : List α} (h : l.Perm l') : l.eraseDups.Perm l'.eraseDups := by
  apply (List.perm_ext_iff_of_nodup (nodup_eraseDups l) (nodup_eraseDups l')).mpr
  intro a
  rw [List.mem_eraseDups, List.mem_eraseDups, h.mem_iff]

end Distinct

theorem mergeSort_texts {l l' : List String} (h : l.Perm l') :
    l.mergeSort (fun a b => decide (a ≤ b)) = l'.mergeSort fun a b => decide (a ≤ b) := by
  have sorted (l : List String) : (l.mergeSort fun a b => decide (a ≤ b)).Pairwise (· ≤ ·) := by
    have trans (a b c : String) : decide (a ≤ b) = true → decide (b ≤ c) = true →
        decide (a ≤ c) = true := by simpa using String.le_trans
    have total (a b : String) : (decide (a ≤ b) || decide (b ≤ a)) = true := by
      simpa using String.le_total a b
    simpa using List.pairwise_mergeSort trans total l
  apply List.Perm.eq_of_pairwise (fun a b _ _ => String.le_antisymm) (sorted l) (sorted l')
  exact ((List.mergeSort_perm l _).trans h).trans (List.mergeSort_perm l' _).symm

theorem length_flatMap_filter {β γ : Type} {keys : List γ} {l : List β} {picks : γ → β → Bool}
    {p : β → Bool} (h : ∀ x ∈ l, keys.countP (fun k => picks k x) = if p x then 1 else 0) :
    (keys.flatMap fun k => l.filter (picks k)).length = l.countP p := by
  have cons (x : β) (l : List β) : (keys.flatMap fun k => (x :: l).filter (picks k)).length =
      keys.countP (fun k => picks k x) + (keys.flatMap fun k => l.filter (picks k)).length := by
    clear h
    induction keys with
    | nil => rfl
    | cons k keys ih =>
      rw [List.flatMap_cons, List.length_append, ih, List.flatMap_cons, List.length_append,
        List.countP_cons, List.filter_cons]
      split
      · rw [List.length_cons]
        omega
      · omega
  induction l with
  | nil => simp
  | cons x l ih =>
    rw [List.forall_mem_cons] at h
    rw [cons, ih h.2, h.1, List.countP_cons, Nat.add_comm]

namespace Scan

variable {s : Scan} {m : String}

theorem mem_featureModules : m ∈ s.featureModules ↔
    s.basePackage ≠ "" ∧ ∃ f ∈ s.mainFiles, moduleOf? s.basePackage f.package = some m := by
  rw [featureModules]
  split
  · next heq => simp [heq]
  · next hne => simp [hne, List.mem_mergeSort, List.mem_eraseDups]

/-- The modules of a scan whose files come in the order of their modules. -/
theorem featureModules_of_sorted {modules : List String} (hbase : s.basePackage ≠ "")
    (hfound : (s.mainFiles.filterMap fun f => moduleOf? s.basePackage f.package).eraseDups =
      modules)
    (hsorted : modules.Pairwise fun a b => decide (a ≤ b) = true) :
    s.featureModules = modules := by
  rw [featureModules, if_neg hbase]
  dsimp only
  rw [hfound, List.mergeSort_of_pairwise hsorted]

theorem nodup_featureModules (s : Scan) : s.featureModules.Nodup := by
  rw [featureModules]
  split
  · exact List.nodup_nil
  · exact (List.mergeSort_perm _ _).nodup_iff.mpr (nodup_eraseDups _)

end Scan

end JavaProfile
