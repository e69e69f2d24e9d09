/-!
Angle brackets in the header of a type. A closing bracket belongs to the last opening one before it
that is still open, and a group is what stands between the two, with both. Main statement: removing
the groups without brackets inside, again and again until none is left, removes all groups.
-/

namespace JavaProfile.Source

/-! ### Groups -/

/-- A text that has been read up to some character, without the groups that are closed there. Pieces
have their last character first. -/
structure Partial where
  /-- The pieces before the brackets that are still open, the last one first. -/
  outer : List (List Char) := []
  /-- The piece behind them. -/
  piece : List Char := []

namespace Partial

/-- One character more. A closing bracket ends the group of the last open one. -/
def add (p : Partial) (c : Char) : Partial :=
  if c = '<' then ⟨p.piece :: p.outer, []⟩
  else if c = '>' then
    match p.outer with
    | [] => ⟨[], c :: p.piece⟩
    | piece :: outer => ⟨outer, piece⟩
  else ⟨p.outer, c :: p.piece⟩

/-- Pieces with the brackets behind them, and the text `rest` after the last one. -/
def joinPieces : List (List Char) → (rest : List Char) → List Char
  | [], rest => rest
  | piece :: outer, rest => joinPieces outer (piece.reverse ++ '<' :: rest)

def text (p : Partial) : List Char :=
  joinPieces p.outer p.piece.reverse

end Partial

/-- The text without any group of matching brackets. -/
def dropGroups (cs : List Char) : List Char :=
  (cs.foldl Partial.add {}).text

/-! ### Groups without brackets inside -/

/-- One removal of the groups that have no brackets inside. `held` is the text from an opening
bracket on, the last character first, as long as no other bracket has followed. -/
def dropInnerFrom (held : Option (List Char)) : List Char → List Char
  | [] => (held.getD []).reverse
  | c :: cs =>
    match held with
    | none => if c = '<' then dropInnerFrom (some ['<']) cs else c :: dropInnerFrom none cs
    | some h =>
      if c = '>' then dropInnerFrom none cs
      else if c = '<' then h.reverse ++ dropInnerFrom (some ['<']) cs
      else dropInnerFrom (some (c :: h)) cs

def dropInner (cs : List Char) : List Char :=
  dropInnerFrom none cs

theorem length_dropInnerFrom_le (held : Option (List Char)) (cs : List Char) :
    (dropInnerFrom held cs).length ≤ (held.getD []).length + cs.length := by
  induction cs generalizing held with
  | nil => simp [dropInnerFrom]
  | cons c cs ih =>
    cases held with
    | none =>
      rw [dropInnerFrom]
      split
      · have := ih (some ['<']); simp at this ⊢; omega
      · have := ih none; simp at this ⊢; omega
    | some h =>
      rw [dropInnerFrom]
      split
      · have := ih none; simp at this ⊢; omega
      · split
        · have := ih (some ['<']); simp at this ⊢; omega
        · have := ih (some (c :: h)); simp at this ⊢; omega

/-- The text after as many removals as remove something. -/
def dropRepeatedly (cs : List Char) : List Char :=
  if (dropInner cs).length < cs.length then dropRepeatedly (dropInner cs) else cs
termination_by cs.length

/-! ### Both removals -/

namespace Partial

theorem add_open (p : Partial) : p.add '<' = ⟨p.piece :: p.outer, []⟩ := by
  simp [add]

theorem add_close (outer : List (List Char)) (piece inner : List Char) :
    add ⟨piece :: outer, inner⟩ '>' = ⟨outer, piece⟩ := by
  simp [add]

theorem add_plain {c : Char} (notOpen : c ≠ '<') (notClose : c ≠ '>') (p : Partial) :
    p.add c = ⟨p.outer, c :: p.piece⟩ := by
  simp [add, notOpen, notClose]

/-- Where no bracket is open, a closing one is a character like others. -/
theorem add_bare {c : Char} (notOpen : c ≠ '<') (piece : List Char) :
    add ⟨[], piece⟩ c = ⟨[], c :: piece⟩ := by
  rw [add, if_neg notOpen]
  split <;> rfl

theorem joinPieces_append (outer : List (List Char)) (rest more : List Char) :
    joinPieces outer (rest ++ more) = joinPieces outer rest ++ more := by
  induction outer generalizing rest with
  | nil => rfl
  | cons piece outer ih => simp [joinPieces, ← ih]

theorem text_cons (outer : List (List Char)) (c : Char) (piece : List Char) :
    text ⟨outer, c :: piece⟩ = text ⟨outer, piece⟩ ++ [c] := by
  simp [text, joinPieces_append]

theorem text_open (p : Partial) : text ⟨p.piece :: p.outer, []⟩ = p.text ++ ['<'] := by
  simp [text, joinPieces, joinPieces_append]

end Partial

open Partial

def isPlain (c : Char) : Prop :=
  c ≠ '<' ∧ c ≠ '>'

theorem foldl_add_plain {cs : List Char} (plain : ∀ c ∈ cs, isPlain c) (p : Partial) :
    cs.foldl add p = ⟨p.outer, cs.reverse ++ p.piece⟩ := by
  induction cs generalizing p with
  | nil => rfl
  | cons c cs ih =>
    have ⟨notOpen, notClose⟩ := plain c (by simp)
    rw [List.foldl_cons, add_plain notOpen notClose,
      ih fun d hd => plain d (List.mem_cons_of_mem _ hd)]
    simp

/-- What has been held back since an opening bracket is a piece behind it. -/
theorem foldl_add_held {inner : List Char} (plain : ∀ c ∈ inner, isPlain c) (p : Partial) :
    (inner ++ ['<']).reverse.foldl add p = ⟨p.piece :: p.outer, inner⟩ := by
  rw [List.reverse_append, List.reverse_singleton, List.singleton_append, List.foldl_cons,
    add_open, foldl_add_plain (by simpa using plain)]
  simp

/-- Groups without brackets inside make no difference for what is left of the text. -/
theorem foldl_add_dropInnerFrom (cs : List Char) :
    (∀ p, (dropInnerFrom none cs).foldl add p = cs.foldl add p) ∧
      ∀ (p : Partial) (inner : List Char), (∀ c ∈ inner, isPlain c) →
        (dropInnerFrom (some (inner ++ ['<'])) cs).foldl add p =
          cs.foldl add ⟨p.piece :: p.outer, inner⟩ := by
  induction cs with
  | nil => exact ⟨fun _ => rfl, fun p inner plain => foldl_add_held plain p⟩
  | cons c cs ih =>
    obtain ⟨free, held⟩ := ih
    constructor
    · intro p
      rw [dropInnerFrom]
      split
      · next isOpen => rw [isOpen, List.foldl_cons, add_open, ← held p [] (by simp)]; rfl
      · rw [List.foldl_cons, List.foldl_cons, free]
    · intro p inner plain
      rw [dropInnerFrom]
      split
      · next isClose => rw [isClose, List.foldl_cons, add_close, free]
      · next notClose =>
        split
        · next isOpen =>
          rw [List.foldl_append, foldl_add_held plain, isOpen, List.foldl_cons, add_open]
          exact held _ [] (by simp)
        · next notOpen =>
          rw [List.foldl_cons, add_plain notOpen notClose]
          refine held p (c :: inner) fun d hd => ?_
          rcases List.mem_cons.1 hd with rfl | hd
          · exact ⟨notOpen, notClose⟩
          · exact plain d hd

theorem dropGroups_dropInner (cs : List Char) : dropGroups (dropInner cs) = dropGroups cs := by
  rw [dropGroups, dropInner, (foldl_add_dropInnerFrom cs).1, dropGroups]

/-- Where nothing closes, nothing is removed. -/
theorem text_foldl_add {cs : List Char} (h : '>' ∉ cs) (p : Partial) :
    (cs.foldl add p).text = p.text ++ cs := by
  induction cs generalizing p with
  | nil => simp
  | cons c cs ih =>
    simp only [List.mem_cons, not_or] at h
    rw [List.foldl_cons, ih h.2]
    by_cases isOpen : c = '<'
    · rw [isOpen, add_open, text_open]; simp
    · rw [add_plain isOpen (Ne.symm h.1), text_cons]; simp

/-- A text behind an opening bracket that keeps its length has no closing one. -/
theorem close_not_mem_of_length {h cs : List Char}
    (same : h.length + cs.length ≤ (dropInnerFrom (some h) cs).length) : '>' ∉ cs := by
  induction cs generalizing h with
  | nil => simp
  | cons c cs ih =>
    rw [dropInnerFrom] at same
    split at same
    · have := length_dropInnerFrom_le none cs
      simp at this same
      omega
    · next notClose =>
      have rest : '>' ∉ cs := by
        split at same
        · exact ih (h := ['<']) (by simp at same ⊢; omega)
        · exact ih (h := c :: h) (by simp at same ⊢; omega)
      simp [rest, Ne.symm notClose]

theorem text_foldl_add_of_length {cs : List Char}
    (same : cs.length ≤ (dropInnerFrom none cs).length) (piece : List Char) :
    (cs.foldl add ⟨[], piece⟩).text = text ⟨[], piece⟩ ++ cs := by
  induction cs generalizing piece with
  | nil => simp
  | cons c cs ih =>
    rw [dropInnerFrom] at same
    split at same
    · next isOpen =>
      have rest : '>' ∉ cs := close_not_mem_of_length (h := ['<']) (by simp at same ⊢; omega)
      exact text_foldl_add (by simp [rest, isOpen]) _
    · next notOpen =>
      simp only [List.length_cons, Nat.add_le_add_iff_right] at same
      rw [List.foldl_cons, add_bare notOpen, ih same, text_cons]
      simp

/-- Removing groups from the inside to the outside removes all of them. -/
theorem dropRepeatedly_eq_dropGroups (cs : List Char) : dropRepeatedly cs = dropGroups cs := by
  fun_induction dropRepeatedly cs with
  | case1 cs shorter ih => rw [ih, dropGroups_dropInner]
  | case2 cs notShorter =>
    rw [dropGroups, text_foldl_add_of_length (Nat.not_lt.1 notShorter) []]
    rfl

end JavaProfile.Source
