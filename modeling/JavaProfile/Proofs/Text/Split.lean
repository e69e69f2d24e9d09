import Mathlib.Data.List.TakeWhile
import JavaProfile.Text.Blank
import JavaProfile.Text.Line
import JavaProfile.Text.Split

/-!
Lines of a text whose breaks were made line feeds, the parts of a text that was joined at a
separator, or that has none, and the blanks around a text.
-/

namespace JavaProfile.Text

theorem opensBreak_iff {c : Char} {cs : List Char} :
    opensBreak c cs = true ↔ c = '\r' ∧ cs.head? = some '\n' := by
  simp [opensBreak]

theorem lines_unifyBreaks (cs : List Char) : lines (unifyBreaks cs) = lines cs := by
  induction cs with
  | nil => rfl
  | cons c cs ih =>
    rw [unifyBreaks, lines]
    by_cases hopens : opensBreak c cs = true
    · rw [if_pos hopens, if_pos hopens, ih]
    · have hfeed : (if c = '\r' then '\n' else c) ≠ '\r' := by
        split
        · decide
        · assumption
      have hclosed : ¬ opensBreak (if c = '\r' then '\n' else c) (unifyBreaks cs) = true := by
        rw [opensBreak_iff]
        exact fun h => hfeed h.1
      have hbreak : isLineBreak (if c = '\r' then '\n' else c) = isLineBreak c := by
        split
        · next hc =>
          rw [hc]
          decide
        · rfl
      rw [if_neg hopens, if_neg hopens, lines, if_neg hclosed, hbreak, ih]
      by_cases hend : isLineBreak c = true
      · rw [if_pos hend, if_pos hend]
      · have hc : c ≠ '\r' := by
          rintro rfl
          exact hend (by decide)
        rw [if_neg hend, if_neg hend, if_neg hc]

theorem notMem_splitOn (sep : Char) (cs : List Char) : ∀ p ∈ splitOn sep cs, sep ∉ p := by
  induction cs with
  | nil => simp [splitOn]
  | cons c cs ih =>
    rw [splitOn]
    split
    · simpa using ih
    · next hne =>
      cases hcs : splitOn sep cs with
      | nil => exact absurd hcs (splitOn_ne_nil sep cs)
      | cons p ps =>
        rw [hcs] at ih
        simp only [List.forall_mem_cons] at ih ⊢
        refine ⟨?_, ih.2⟩
        simp [ih.1, Ne.symm hne]

theorem splitOn_append_cons (sep : Char) (cs ds : List Char) :
    splitOn sep (cs ++ sep :: ds) = splitOn sep cs ++ splitOn sep ds := by
  induction cs with
  | nil => simp [splitOn]
  | cons c cs ih =>
    rw [List.cons_append, splitOn, splitOn]
    split
    · rw [ih, List.cons_append]
    · rw [ih]
      cases hcs : splitOn sep cs with
      | nil => exact absurd hcs (splitOn_ne_nil sep cs)
      | cons p ps => rfl

theorem pieces_append (sep : Char) (s t : String) :
    pieces sep (s ++ String.singleton sep ++ t) = pieces sep s ++ pieces sep t := by
  rw [pieces, String.toList_append, String.toList_append, String.toList_singleton,
    List.append_assoc, List.singleton_append, splitOn_append_cons, List.map_append, pieces, pieces]

theorem pieces_of_notMem {sep : Char} {s : String} (h : sep ∉ s.toList) : pieces sep s = [s] := by
  rw [pieces, splitOn_free h, List.map_singleton, String.ofList_toList]

/-! ### Blanks around a text -/

section

variable {c : Char} {cs : List Char}

theorem trimStart_cons (h : isBlank c = false) : trimStart (c :: cs) = c :: cs := by
  rw [trimStart, List.dropWhile_cons_of_neg (by simp [h])]

theorem trimStart_of_all (h : ∀ c ∈ cs, isBlank c = false) : trimStart cs = cs := by
  cases cs with
  | nil => rfl
  | cons c cs => exact trimStart_cons (h c List.mem_cons_self)

theorem trim_of_all (h : ∀ c ∈ cs, isBlank c = false) : trim cs = cs := by
  have hreverse : ∀ c ∈ cs.reverse, isBlank c = false := fun c hc => h c (List.mem_reverse.mp hc)
  rw [trim, trimStart_of_all h, trimEnd, trimStart_of_all hreverse, List.reverse_reverse]

theorem trimEnd_cons (h : isBlank c = false) : trimEnd (c :: cs) = c :: trimEnd cs := by
  rw [trimEnd, trimEnd, trimStart, trimStart, List.reverse_cons, List.dropWhile_append]
  split
  · next hnone => simp [List.isEmpty_iff.mp hnone, h]
  · simp

theorem trim_cons (h : isBlank c = false) : trim (c :: cs) = c :: trimEnd cs := by
  rw [trim, trimStart_cons h, trimEnd_cons h]

theorem trimStart_append {a : List Char} (h : trimStart a = c :: cs) (b : List Char) :
    trimStart (a ++ b) = c :: (cs ++ b) := by
  rw [trimStart] at h ⊢
  rw [List.dropWhile_append, h]
  rfl

end

theorem trimStart_split (cs : List Char) :
    ∃ before, cs = before ++ trimStart cs ∧ ∀ c ∈ before, isBlank c = true :=
  ⟨cs.takeWhile isBlank, List.takeWhile_append_dropWhile.symm, fun _ hc => List.mem_takeWhile_imp hc⟩

theorem trimEnd_split (cs : List Char) :
    ∃ after, cs = trimEnd cs ++ after ∧ ∀ c ∈ after, isBlank c = true := by
  obtain ⟨before, hbefore, hblank⟩ := trimStart_split cs.reverse
  refine ⟨before.reverse, ?_, fun c hc => hblank c (List.mem_reverse.mp hc)⟩
  rw [trimEnd, ← List.reverse_append, ← hbefore, List.reverse_reverse]

end JavaProfile.Text
