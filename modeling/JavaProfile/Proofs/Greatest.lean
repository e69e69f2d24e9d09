import Mathlib.Order.Lattice

/-!
The first of the greatest elements of a list, found by going through it once.
-/

namespace JavaProfile

variable {α β : Type} [LinearOrder β] [DecidableLT β]

/-- The element with the greatest value, the first of several such. -/
def greatestFrom (f : α → β) (a : α) (l : List α) : α :=
  l.foldl (fun best x => if f best < f x then x else best) a

theorem greatestFrom_cons (f : α → β) (a b : α) (l : List α) :
    greatestFrom f a (b :: l) = if f a < f b then greatestFrom f b l else greatestFrom f a l := by
  rw [greatestFrom, List.foldl_cons]
  split <;> rfl

theorem le_greatestFrom (f : α → β) (a : α) (l : List α) :
    ∀ x ∈ a :: l, f x ≤ f (greatestFrom f a l) := by
  induction l generalizing a with
  | nil => simp [greatestFrom]
  | cons b l ih =>
    simp only [List.forall_mem_cons] at ih ⊢
    rw [greatestFrom_cons]
    split
    · next hlt =>
      obtain ⟨hb, hl⟩ := ih b
      exact ⟨hlt.le.trans hb, hb, hl⟩
    · next hle =>
      obtain ⟨ha, hl⟩ := ih a
      exact ⟨ha, (not_lt.mp hle).trans ha, hl⟩

theorem greatestFrom_split (f : α → β) (a : α) (l : List α) :
    ∃ before after, a :: l = before ++ greatestFrom f a l :: after ∧
      ∀ x ∈ before, f x < f (greatestFrom f a l) := by
  induction l generalizing a with
  | nil => exact ⟨[], [], rfl, by simp⟩
  | cons b l ih =>
    rw [greatestFrom_cons]
    split
    · next hlt =>
      obtain ⟨before, after, heq, hbefore⟩ := ih b
      refine ⟨a :: before, after, congrArg (a :: ·) heq, ?_⟩
      rw [List.forall_mem_cons]
      exact ⟨hlt.trans_le (le_greatestFrom f b l b (by simp)), hbefore⟩
    · next hle =>
      obtain ⟨before, after, heq, hbefore⟩ := ih a
      cases before with
      | nil =>
        rw [List.nil_append, List.cons.injEq] at heq
        rw [← heq.1]
        exact ⟨[], b :: l, rfl, by simp⟩
      | cons a' before =>
        rw [List.cons_append, List.cons.injEq] at heq
        rw [List.forall_mem_cons, ← heq.1] at hbefore
        refine ⟨a :: b :: before, after, congrArg (fun l => a :: b :: l) heq.2, ?_⟩
        rw [List.forall_mem_cons, List.forall_mem_cons]
        exact ⟨hbefore.1, (not_lt.mp hle).trans_lt hbefore.1, hbefore.2⟩

theorem greatestFrom_mem (f : α → β) (a : α) (l : List α) : greatestFrom f a l ∈ a :: l := by
  obtain ⟨before, after, heq, -⟩ := greatestFrom_split f a l
  rw [heq]
  simp

end JavaProfile
