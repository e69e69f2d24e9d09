import Mathlib.Data.List.Sublists
import Mathlib.Logic.Function.Iterate
import JavaProfile.Source.Brackets

/-!
Groups of matching brackets by the places of their brackets. Main statement: removing the groups
without brackets inside, round after round, ends with the text outside of all groups.
-/

namespace JavaProfile.Source

open Partial

/-! ### Brackets that match -/

/-- The brackets of a text up to some place. -/
structure Matching where
  /-- The places of opening brackets without a match, the last one first. -/
  opened : List ℕ := []
  /-- The places of brackets that match. -/
  groups : List (ℕ × ℕ) := []

namespace Matching

/-- A character more, with its place. A closing bracket matches the last opening one that has no
match yet. -/
def add (m : Matching) (x : Char × ℕ) : Matching :=
  if x.1 = '<' then ⟨x.2 :: m.opened, m.groups⟩
  else if x.1 = '>' then
    match m.opened with
    | [] => m
    | place :: opened => ⟨opened, (place, x.2) :: m.groups⟩
  else m

/-- Whether a place is between the brackets of some group, or that of one of them. -/
def holds (m : Matching) (i : ℕ) : Bool :=
  m.groups.any fun g => decide (g.1 ≤ i ∧ i ≤ g.2)

/-- What stands before a place outside of the groups. -/
def kept (m : Matching) (cs : List Char) (i : ℕ) : List Char :=
  ((cs.take i).zipIdx.filter fun x => !m.holds x.2).map Prod.fst

end Matching

def matching (cs : List Char) : Matching :=
  cs.zipIdx.foldl Matching.add {}

/-- The characters outside of all groups. -/
def outside (cs : List Char) : List Char :=
  (cs.zipIdx.filter fun x => !(matching cs).holds x.2).map Prod.fst

namespace Matching

variable {m : Matching} {before before' : ℕ → List Char} {cs : List Char} {opened : List ℕ}
  {p : Partial} {i n place : ℕ}

theorem matching_concat (cs : List Char) (c : Char) :
    matching (cs ++ [c]) = (matching cs).add (c, cs.length) := by
  simp [matching, List.zipIdx_append]

theorem add_cases (m : Matching) (c : Char) (i : ℕ) :
    (c = '<' ∧ m.add (c, i) = ⟨i :: m.opened, m.groups⟩) ∨
      (∃ place opened, c = '>' ∧ m.opened = place :: opened ∧
        m.add (c, i) = ⟨opened, (place, i) :: m.groups⟩) ∨
      (c ≠ '<' ∧ (c = '>' → m.opened = []) ∧ m.add (c, i) = m) := by
  obtain ⟨opened, groups⟩ := m
  by_cases hopen : c = '<'
  · exact .inl ⟨hopen, by simp [add, hopen]⟩
  · by_cases hclose : c = '>'
    · cases opened with
      | nil => exact .inr (.inr ⟨hopen, fun _ => rfl, by simp [add, hclose]⟩)
      | cons place opened => exact .inr (.inl ⟨place, opened, hclose, rfl, by simp [add, hclose]⟩)
    · exact .inr (.inr ⟨hopen, fun h => absurd h hclose, by simp [add, hopen, hclose]⟩)

theorem group_lt (cs : List Char) : ∀ g ∈ (matching cs).groups, g.2 < cs.length := by
  induction cs using List.reverseRecOn with
  | nil => exact fun g hg => absurd hg List.not_mem_nil
  | append_singleton cs c ih =>
    have hlater : ∀ g ∈ (matching cs).groups, g.2 < cs.length + 1 :=
      fun g hg => (ih g hg).trans (Nat.lt_succ_self _)
    rw [matching_concat, List.length_append, List.length_singleton]
    rcases (matching cs).add_cases c cs.length with ⟨-, hadd⟩ | ⟨place, opened, -, -, hadd⟩ |
      ⟨-, -, hadd⟩
    · rw [hadd]
      exact hlater
    · rw [hadd, List.forall_mem_cons]
      exact ⟨Nat.lt_succ_self _, hlater⟩
    · rw [hadd]
      exact hlater

theorem holds_length (cs : List Char) : (matching cs).holds cs.length = false := by
  rw [holds, List.any_eq_false]
  intro g hg
  have hlt := group_lt cs g hg
  simp only [decide_eq_true_eq]
  omega

/-! ### What is kept -/

theorem kept_append (h : i ≤ cs.length) (ds : List Char) : m.kept (cs ++ ds) i = m.kept cs i := by
  rw [kept, kept, List.take_append_of_le_length h]

theorem kept_succ (m : Matching) (cs : List Char) (i : ℕ) :
    m.kept cs (i + 1) = m.kept cs i ++ if m.holds i then [] else cs[i]?.toList := by
  rw [kept, kept, List.take_add_one, List.zipIdx_append, List.filter_append, List.map_append]
  congr 1
  cases hget : cs[i]? with
  | none => simp
  | some c =>
    have hlt := (List.getElem?_eq_some_iff.mp hget).1
    cases hholds : m.holds i <;> simp [hholds, Nat.min_eq_left hlt.le]

theorem kept_concat (h : m.holds cs.length = false) (c : Char) :
    m.kept (cs ++ [c]) (cs.length + 1) = m.kept cs cs.length ++ [c] := by
  rw [kept_succ, kept_append (le_refl _), h]
  simp

theorem kept_of_holds (hle : i ≤ n) (h : ∀ j, i ≤ j → j < n → m.holds j = true) :
    m.kept cs n = m.kept cs i := by
  induction n, hle using Nat.le_induction with
  | base => rfl
  | succ n hle ih =>
    have hn := h n hle (Nat.lt_succ_self n)
    have hbefore := ih fun j hij hjn => h j hij (hjn.trans (Nat.lt_succ_self n))
    simp [kept_succ, hn, hbefore]

theorem kept_group (h : i ≤ place) :
    kept ⟨opened, (place, n) :: m.groups⟩ cs i = m.kept cs i := by
  rw [kept, kept]
  congr 1
  apply List.filter_congr
  intro x hx
  have hlt : x.2 < place := by
    have hlength := List.snd_lt_of_mem_zipIdx hx
    simp at hlength
    omega
  simp [holds, hlt]

/-! ### Agreement -/

/-- What has been read of a text agrees with what is kept of it before a place, and what had been
read in front of each open bracket with what is kept before that. -/
inductive Agrees (before : ℕ → List Char) : Partial → List ℕ → ℕ → Prop
  | bare {piece : List Char} {n : ℕ} (htext : text ⟨[], piece⟩ = before n) :
    Agrees before ⟨[], piece⟩ [] n
  | within {outer : List (List Char)} {piece inner : List Char} {place : ℕ} {opened : List ℕ}
    {n : ℕ} (hlt : place < n) (htext : text ⟨piece :: outer, inner⟩ = before n)
    (houter : Agrees before ⟨outer, piece⟩ opened place) :
    Agrees before ⟨piece :: outer, inner⟩ (place :: opened) n

namespace Agrees

theorem text_eq (h : Agrees before p opened n) : p.text = before n := by
  cases h with
  | bare htext => exact htext
  | within _ htext _ => exact htext

theorem later (h : Agrees before p opened i) (hle : i ≤ n) (hlast : before' n = before i)
    (hsame : ∀ j ≤ i, before' j = before j) : Agrees before' p opened n := by
  induction h generalizing n with
  | bare htext => exact .bare (htext.trans hlast.symm)
  | within hlt htext _ ih =>
    refine .within (hlt.trans_le hle) (htext.trans hlast.symm) ?_
    exact ih le_rfl (hsame _ hlt.le) fun j hj => hsame j (hj.trans hlt.le)

theorem plain {c : Char} (h : Agrees before p opened n) (hopen : c ≠ '<')
    (hclose : c = '>' → opened = []) (hlast : before' (n + 1) = before n ++ [c])
    (hsame : ∀ j ≤ n, before' j = before j) : Agrees before' (p.add c) opened (n + 1) := by
  cases h with
  | bare htext =>
    rw [Partial.add_bare hopen]
    exact .bare (by rw [text_cons, htext, hlast])
  | within hlt htext houter =>
    have hplain : c ≠ '>' := fun heq => List.cons_ne_nil _ _ (hclose heq)
    rw [add_plain hopen hplain]
    refine .within (hlt.trans (Nat.lt_succ_self n)) ?_ (houter.later le_rfl (hsame _ hlt.le) ?_)
    · rw [text_cons, htext, hlast]
    · exact fun j hj => hsame j (hj.trans hlt.le)

end Agrees

theorem agrees (cs : List Char) :
    Agrees ((matching cs).kept cs) (cs.foldl Partial.add {}) (matching cs).opened cs.length := by
  induction cs using List.reverseRecOn with
  | nil => exact .bare rfl
  | append_singleton cs c ih =>
    have hsame {m : Matching} : ∀ j ≤ cs.length, m.kept (cs ++ [c]) j = m.kept cs j :=
      fun j hj => kept_append hj [c]
    have hlast := kept_concat (holds_length cs) c
    rw [List.foldl_append, List.foldl_cons, List.foldl_nil, List.length_append,
      List.length_singleton, matching_concat]
    rcases (matching cs).add_cases c cs.length with ⟨rfl, hadd⟩ |
      ⟨place, opened, rfl, hopened, hadd⟩ | ⟨hopen, hclose, hadd⟩
    · rw [hadd, Partial.add_open]
      refine .within (Nat.lt_succ_self _) ?_ (ih.later le_rfl (hsame _ le_rfl) hsame)
      rw [text_open, ih.text_eq]
      exact hlast.symm
    · rw [hadd]
      rw [hopened] at ih
      generalize cs.foldl Partial.add {} = p at ih
      cases ih with
      | within hlt _ houter =>
        rw [Partial.add_close]
        -- The piece around the group is what had been read in front of the opening bracket, and all
        -- that follows it is in the new group.
        have hbefore : ∀ j ≤ place, kept ⟨opened, (place, cs.length) :: (matching cs).groups⟩
            (cs ++ ['>']) j = (matching cs).kept cs j := by
          intro j hj
          rw [hsame j (hj.trans hlt.le), kept_group hj]
        have hle := hlt.le.trans (Nat.le_succ _)
        refine houter.later hle ((kept_of_holds hle ?_).trans (hbefore place le_rfl)) hbefore
        intro j hj hjn
        simp [holds, hj, Nat.le_of_lt_succ hjn]
    · rw [hadd]
      exact ih.plain hopen hclose hlast hsame

end Matching

/-- What is left of a text are the characters outside of its groups. -/
theorem dropGroups_eq_outside (cs : List Char) : dropGroups cs = outside cs := by
  rw [dropGroups, (Matching.agrees cs).text_eq, Matching.kept, List.take_length, outside]

/-! ### Rounds -/

variable {cs front inner : List Char}

theorem dropInnerFrom_plain (h : ∀ c ∈ inner, isPlain c) (held rest : List Char) :
    dropInnerFrom (some held) (inner ++ '>' :: rest) = dropInner rest := by
  induction inner generalizing held with
  | nil => simp [dropInnerFrom, dropInner]
  | cons c inner ih =>
    rw [List.forall_mem_cons] at h
    rw [List.cons_append, dropInnerFrom, if_neg h.1.2, if_neg h.1.1, ih h.2]

theorem dropInnerFrom_open (h : '>' ∉ front) (held rest : List Char) :
    dropInnerFrom (some held) (front ++ '<' :: rest) =
      held.reverse ++ front ++ dropInnerFrom (some ['<']) rest := by
  induction front generalizing held with
  | nil => simp [dropInnerFrom]
  | cons c front ih =>
    rw [List.mem_cons, not_or] at h
    rw [List.cons_append, dropInnerFrom, if_neg (Ne.symm h.1)]
    split
    · next hopen => simp [ih h.2, hopen]
    · simp [ih h.2]

/-- A round takes out the first group without brackets inside, and goes on behind it. -/
theorem dropInner_group (hfront : ¬ ['<', '>'].Sublist front) (hinner : ∀ c ∈ inner, isPlain c)
    (rest : List Char) :
    dropInner (front ++ '<' :: (inner ++ '>' :: rest)) = front ++ dropInner rest := by
  induction front with
  | nil =>
    rw [List.nil_append, List.nil_append, dropInner, dropInnerFrom, if_pos rfl,
      dropInnerFrom_plain hinner]
  | cons c front ih =>
    rw [List.cons_append, dropInner, dropInnerFrom]
    split
    · next hopen =>
      have hclose : '>' ∉ front := by
        intro hmem
        rw [hopen] at hfront
        exact hfront ((List.singleton_sublist.mpr hmem).cons_cons '<')
      rw [dropInnerFrom_open hclose, dropInnerFrom_plain hinner, hopen]
      rfl
    · have hrest := ih fun hsub => hfront (hsub.cons c)
      rw [dropInner] at hrest
      rw [hrest]
      rfl

theorem dropInnerFrom_sublist (held : Option (List Char)) (cs : List Char) :
    (dropInnerFrom held cs).Sublist ((held.getD []).reverse ++ cs) := by
  induction cs generalizing held with
  | nil => simp [dropInnerFrom]
  | cons c cs ih =>
    cases held with
    | none =>
      rw [dropInnerFrom]
      split
      · next hopen => simpa [hopen] using ih (some ['<'])
      · exact (ih none).cons_cons c
    | some h =>
      rw [dropInnerFrom]
      split
      · exact (ih none).trans (List.sublist_append_of_sublist_right (List.sublist_cons_self c cs))
      · split
        · next hopen => simpa [hopen] using ih (some ['<'])
        · simpa using ih (some (c :: h))

theorem dropInner_of_length_le (h : cs.length ≤ (dropInner cs).length) : dropInner cs = cs :=
  (dropInnerFrom_sublist none cs).eq_of_length_le h

theorem dropInnerFrom_of_notMem (h : '>' ∉ cs) (held : List Char) :
    dropInnerFrom (some held) cs = held.reverse ++ cs := by
  induction cs generalizing held with
  | nil => simp [dropInnerFrom]
  | cons c cs ih =>
    rw [List.mem_cons, not_or] at h
    rw [dropInnerFrom, if_neg (Ne.symm h.1)]
    split
    · next hopen => simp [ih h.2, hopen]
    · simp [ih h.2]

theorem ordered_cons {c : Char} : ['<', '>'].Sublist (c :: cs) ↔
    ['<', '>'].Sublist cs ∨ c = '<' ∧ '>' ∈ cs := by
  rw [List.sublist_cons_iff]
  apply or_congr_right
  constructor
  · rintro ⟨rest, hcons, hrest⟩
    obtain ⟨rfl, rfl⟩ := List.cons.inj hcons
    exact ⟨rfl, List.singleton_sublist.mp hrest⟩
  · rintro ⟨rfl, hmem⟩
    exact ⟨_, rfl, List.singleton_sublist.mpr hmem⟩

theorem dropInner_eq_self_iff : dropInner cs = cs ↔ ¬ ['<', '>'].Sublist cs := by
  induction cs with
  | nil => simp [dropInner, dropInnerFrom]
  | cons c cs ih =>
    rw [ordered_cons, not_or, ← ih, dropInner, dropInnerFrom]
    split
    · -- At an opening bracket the text stays as it is only if none closes behind it.
      next hopen =>
      constructor
      · intro h
        have hclose : '>' ∉ cs := by
          apply close_not_mem_of_length (h := ['<'])
          rw [h]
          simp
          omega
        refine ⟨ih.mpr fun hsub => hclose (hsub.subset (by simp)), fun hmem => hclose hmem.2⟩
      · rintro ⟨-, hclose⟩
        rw [dropInnerFrom_of_notMem fun hmem => hclose ⟨hopen, hmem⟩, hopen]
        rfl
    · next hopen => simp [hopen, dropInner]

theorem dropRepeatedly_rounds (cs : List Char) :
    ∃ n, dropRepeatedly cs = dropInner^[n] cs ∧ dropInner (dropInner^[n] cs) = dropInner^[n] cs ∧
      ∀ k < n, dropInner^[k + 1] cs ≠ dropInner^[k] cs := by
  fun_induction dropRepeatedly cs with
  | case1 cs hshorter ih =>
    obtain ⟨n, hlast, hfixed, hearlier⟩ := ih
    refine ⟨n + 1, hlast, hfixed, fun k hk => ?_⟩
    cases k with
    | zero => exact fun heq => hshorter.ne (congrArg List.length heq)
    | succ k => exact hearlier k (Nat.lt_of_succ_lt_succ hk)
  | case2 cs hlonger =>
    have hfixed := dropInner_of_length_le (Nat.not_lt.mp hlonger)
    exact ⟨0, rfl, hfixed, fun k hk => absurd hk k.not_lt_zero⟩

/-- What has no group left is the same wherever it stands. -/
theorem foldl_add_dropRepeatedly (cs : List Char) (p : Partial) :
    (dropRepeatedly cs).foldl add p = cs.foldl add p := by
  fun_induction dropRepeatedly cs with
  | case1 cs _ ih => rw [ih, dropInner, (foldl_add_dropInnerFrom cs).1]
  | case2 => rfl

theorem dropRepeatedly_of_fixed (h : dropInner cs = cs) : dropRepeatedly cs = cs := by
  rw [dropRepeatedly, if_neg]
  rw [h]
  exact lt_irrefl _

theorem dropRepeatedly_fixed (cs : List Char) :
    dropInner (dropRepeatedly cs) = dropRepeatedly cs := by
  obtain ⟨n, hlast, hfixed, -⟩ := dropRepeatedly_rounds cs
  rw [hlast, hfixed]

/-- A round takes out groups without brackets inside, one after the other. Rounds end, and leave the
characters outside of all groups of matching brackets. So no bracket is open before one that closes,
nothing more is removed from them, and the parts of a text can be stripped before the whole. -/
theorem dropRepeatedly_outside (cs u v : List Char) :
    ((∀ front inner rest, ¬ ['<', '>'].Sublist front → (∀ c ∈ inner, isPlain c) →
        dropInner (front ++ '<' :: (inner ++ '>' :: rest)) = front ++ dropInner rest) ∧
        (dropInner cs = cs ↔ ¬ ['<', '>'].Sublist cs)) ∧
      (∃ n, dropRepeatedly cs = dropInner^[n] cs ∧ dropInner (dropInner^[n] cs) = dropInner^[n] cs ∧
        ∀ k < n, dropInner^[k + 1] cs ≠ dropInner^[k] cs) ∧
      dropRepeatedly cs = outside cs ∧
      dropGroups cs = outside cs ∧
      ¬ ['<', '>'].Sublist (outside cs) ∧
      dropRepeatedly (dropRepeatedly cs) = dropRepeatedly cs ∧
      dropRepeatedly (u ++ v) = dropRepeatedly (dropRepeatedly u ++ dropRepeatedly v) := by
  have houtside : dropRepeatedly cs = outside cs := by
    rw [dropRepeatedly_eq_dropGroups, dropGroups_eq_outside]
  have hfixed := dropRepeatedly_fixed cs
  refine ⟨⟨fun front inner rest hfront hinner => dropInner_group hfront hinner rest,
    dropInner_eq_self_iff⟩, dropRepeatedly_rounds cs, houtside, dropGroups_eq_outside cs, ?_,
    dropRepeatedly_of_fixed hfixed, ?_⟩
  · rw [← houtside]
    exact dropInner_eq_self_iff.mp hfixed
  · rw [dropRepeatedly_eq_dropGroups, dropRepeatedly_eq_dropGroups, dropGroups, dropGroups,
      List.foldl_append, List.foldl_append, foldl_add_dropRepeatedly, foldl_add_dropRepeatedly]

/-- Brackets that have no match stay, and a match may stand in another part of the text. -/
theorem dropRepeatedly_outside_parts :
    dropInner "a>b<c<d>e>f<".toList = "a>b<ce>f<".toList ∧
      dropRepeatedly "a>b<c<d>e>f<".toList = "a>bf<".toList ∧
      dropRepeatedly ("a>b<c<d>e".toList ++ ">f<".toList) =
        dropRepeatedly ("a>b<ce".toList ++ ">f<".toList) := by
  obtain ⟨⟨hgroup, -⟩, -, hwhole, -⟩ := dropRepeatedly_outside "a>b<c<d>e>f<".toList [] []
  obtain ⟨-, -, hfirst, -, -, -, hparts⟩ :=
    dropRepeatedly_outside "a>b<c<d>e".toList "a>b<c<d>e".toList ">f<".toList
  obtain ⟨-, -, hsecond, -⟩ := dropRepeatedly_outside ">f<".toList [] []
  refine ⟨?_, hwhole.trans (by decide +kernel), ?_⟩
  · have hround := hgroup "a>b<c".toList ['d'] "e>f<".toList (by decide) (by simp [isPlain])
    exact hround.trans (by decide +kernel)
  · rw [hparts, hfirst, hsecond]
    exact congrArg dropRepeatedly (by decide +kernel)

end JavaProfile.Source
