import JavaProfile.Proofs.Tree.Names

/-!
Normalized paths, by which a tree in memory knows its files. To write one as a text and to read and
resolve it again changes nothing, and the same holds for all that it lies beneath. The way from one
path to another tells where it leads.
-/

namespace JavaProfile

namespace Path

variable {p q : Path} {root : Root} {done : List String}

/-! ### Parts that are resolved -/

/-- Parts, the last one first, that nothing is taken back from when they are resolved. -/
def Settled (root : Root) (done : List String) : Prop :=
  done.reverse.foldl (resolveStep root) [] = done

theorem resolve_cons (root : Root) (last : String) (rest : List String) :
    (last :: rest).reverse.foldl (resolveStep root) [] =
      resolveStep root (rest.reverse.foldl (resolveStep root) []) last := by
  rw [List.reverse_cons, List.foldl_append, List.foldl_cons, List.foldl_nil]

theorem length_resolveStep (root : Root) (done : List String) (part : String) :
    (resolveStep root done part).length ≤ done.length + 1 := by
  fun_cases resolveStep root done part <;> grind

theorem length_resolve (root : Root) (parts : List String) :
    (parts.reverse.foldl (resolveStep root) []).length ≤ parts.length := by
  induction parts with
  | nil => simp
  | cons part parts ih =>
    rw [resolve_cons, List.length_cons]
    exact Nat.le_trans (length_resolveStep _ _ _) (Nat.add_le_add_right ih 1)

theorem Settled.resolveStep_eq {last : String} {rest : List String}
    (h : Settled root (last :: rest)) :
    resolveStep root (rest.reverse.foldl (resolveStep root) []) last = last :: rest := by
  rw [← resolve_cons]
  exact h

theorem Settled.rest {last : String} {rest : List String} (h : Settled root (last :: rest)) :
    Settled root rest := by
  have hstep := h.resolveStep_eq
  have hshort := length_resolve root rest
  unfold Settled
  generalize rest.reverse.foldl (resolveStep root) [] = before at hstep hshort ⊢
  unfold resolveStep at hstep
  split at hstep
  · exact (List.cons.inj hstep).2
  · cases before with
    | nil =>
      dsimp only at hstep
      split at hstep
      · exact (List.cons.inj hstep).2
      · cases hstep
    | cons last' rest' =>
      dsimp only at hstep
      split at hstep
      · exact (List.cons.inj hstep).2
      · -- Parts taken back would leave fewer than there are.
        rw [hstep, List.length_cons, List.length_cons] at hshort
        omega

theorem Settled.of_append {before after : List String} (h : Settled root (before ++ after)) :
    Settled root after := by
  induction before with
  | nil => exact h
  | cons last before ih => exact ih h.rest

/-- Where a part `..` is left, nothing but such parts is before it, and no root. -/
theorem Settled.climbs {rest : List String} (h : Settled root (".." :: rest)) :
    root = .relative ∧ ∀ part ∈ rest, part = ".." := by
  induction rest with
  | nil =>
    refine ⟨?_, by simp⟩
    cases root with
    | relative => rfl
    | single => cases h
    | double => cases h
  | cons last rest ih =>
    have hstep := h.resolveStep_eq
    rw [h.rest] at hstep
    by_cases hlast : last = ".."
    · subst hlast
      obtain ⟨hroot, hrest⟩ := ih h.rest
      exact ⟨hroot, fun part hpart => (List.mem_cons.mp hpart).elim id (hrest part)⟩
    · -- The part before is taken back then, and fewer parts are left.
      simp only [Path.resolveStep, ne_eq, not_true, if_false, hlast] at hstep
      have hlength := congrArg List.length hstep
      simp only [List.length_cons] at hlength
      omega

theorem Settled.notMem_up (h : Settled root done) (hroot : root ≠ .relative) : ".." ∉ done := by
  intro hup
  obtain ⟨before, after, rfl⟩ := List.append_of_mem hup
  exact hroot h.of_append.climbs.1

theorem Settled.resolveStep (h : Settled root done) (part : String) :
    Settled root (resolveStep root done part) := by
  have hpush (hpart : Path.resolveStep root done part = part :: done) :
      Settled root (part :: done) := by
    rw [Settled, resolve_cons, h, hpart]
  by_cases hpart : part = ".."
  · subst hpart
    cases done with
    | nil => cases root <;> rfl
    | cons last rest =>
      by_cases hlast : last = ".."
      · have hstep : Path.resolveStep root (last :: rest) ".." = ".." :: last :: rest := by
          simp [Path.resolveStep, hlast]
        rw [hstep]
        exact hpush hstep
      · have hstep : Path.resolveStep root (last :: rest) ".." = rest := by
          simp [Path.resolveStep, hlast]
        rw [hstep]
        exact h.rest
  · rw [resolveStep_name _ _ hpart]
    exact hpush (resolveStep_name _ _ hpart)

theorem settled_resolve (root : Root) (parts : List String) :
    Settled root (parts.foldl (resolveStep root) []) := by
  have hfrom (done : List String) (h : Settled root done) :
      Settled root (parts.foldl (Path.resolveStep root) done) := by
    induction parts generalizing done with
    | nil => exact h
    | cons part parts ih => exact ih _ (h.resolveStep part)
  exact hfrom [] rfl

/-! ### Keys -/

/-- A path that a text can have, with nothing in it to be taken back. -/
structure IsKey (p : Path) : Prop where
  spelled : p.Spelled
  settled : Settled p.root p.parts.reverse

theorem spelled_ofString (s : String) : (ofString s).Spelled := by
  intro part hpart
  obtain ⟨hpiece, hkept⟩ := List.mem_filter.mp hpart
  simp only [ne_eq, decide_not, Bool.and_eq_true, Bool.not_eq_true', decide_eq_false_iff_not]
    at hkept
  refine ⟨?_, hkept.1, hkept.2⟩
  obtain ⟨cs, hcs, rfl⟩ := List.mem_map.mp hpiece
  rw [String.toList_ofList]
  exact Text.notMem_splitOn _ _ _ hcs

theorem mem_resolveStep {part next : String} (h : part ∈ resolveStep root done next) :
    part ∈ next :: done ∨ part = ".." := by
  revert h
  fun_cases resolveStep root done next <;> grind

theorem mem_resolve {parts : List String} {part : String}
    (h : part ∈ parts.foldl (resolveStep root) done) :
    part ∈ done ∨ part ∈ parts ∨ part = ".." := by
  induction parts generalizing done with
  | nil => exact .inl h
  | cons next parts ih =>
    rcases ih h with hstep | hlater
    · rcases mem_resolveStep hstep with hmem | hup
      · rcases List.mem_cons.mp hmem with rfl | hdone
        · exact .inr (.inl List.mem_cons_self)
        · exact .inl hdone
      · exact .inr (.inr hup)
    · exact .inr (hlater.imp_left (List.mem_cons_of_mem _))

theorem isPart_up : IsPart ".." where
  noSeparator := by decide
  ne_empty := by decide
  ne_here := by decide

theorem Spelled.normalize (h : p.Spelled) : p.normalize.Spelled := by
  intro part hpart
  rcases mem_resolve (List.mem_reverse.mp hpart) with hnone | hparts | rfl
  · cases hnone
  · exact h part hparts
  · exact isPart_up

theorem isKey_key (s : String) : (MemoryTree.key s).IsKey where
  spelled := (spelled_ofString s).normalize
  settled := by
    rw [MemoryTree.key, Path.normalize, List.reverse_reverse]
    exact settled_resolve _ _

namespace IsKey

theorem normalize (h : p.IsKey) : p.normalize = p := by
  have hsettled := h.settled
  rw [Settled, List.reverse_reverse] at hsettled
  rw [Path.normalize, hsettled, List.reverse_reverse]

theorem key_text (h : p.IsKey) : MemoryTree.key p.text = p := by
  rw [MemoryTree.key, h.spelled.ofString_text, h.normalize]

theorem take (h : p.IsKey) (n : ℕ) : IsKey ⟨p.root, p.parts.take n⟩ where
  spelled part hpart := h.spelled part (List.mem_of_mem_take hpart)
  settled := by
    have hall := h.settled
    rw [← List.take_append_drop n p.parts, List.reverse_append] at hall
    exact hall.of_append

theorem parent (h : p.IsKey) : p.parent.IsKey := by
  rw [Path.parent, List.dropLast_eq_take]
  exact h.take _

theorem of_beneath (h : p.IsKey) (hbeneath : p.isBeneath q = true) : q.IsKey := by
  obtain ⟨way, -, rfl⟩ := isBeneath_iff.mp hbeneath
  have htake := h.take q.parts.length
  rwa [down_root, down_parts, List.take_left] at htake

end IsKey

/-- A relative path that only leads outwards. A path beneath it may lead further out. -/
def Climbs (p : Path) : Prop :=
  p.root = .relative ∧ ∀ part ∈ p.parts, part = ".."

instance (p : Path) : Decidable p.Climbs :=
  inferInstanceAs (Decidable (_ ∧ _))

theorem IsKey.notMem_up {way : List String} (h : (p.down way).IsKey) (hp : ¬ p.Climbs) :
    ".." ∉ way := by
  intro hup
  obtain ⟨before, after, rfl⟩ := List.append_of_mem hup
  have hsettled : Settled p.root
      (after.reverse ++ ".." :: (before.reverse ++ p.parts.reverse)) := by
    simpa using h.settled
  obtain ⟨hroot, hrest⟩ := hsettled.of_append.climbs
  exact hp ⟨hroot, fun part hpart => hrest part (by simp [hpart])⟩

/-! ### Ways from one path to another -/

theorem normalize_down {way : List String} (hway : ".." ∉ way) :
    (p.down way).normalize = p.normalize.down way := by
  have hnames : ∀ name ∈ way, name ≠ ".." := fun name hname heq => hway (heq ▸ hname)
  rw [Path.normalize, down_root, down_parts, List.foldl_append, resolve_names _ _ hnames,
    List.reverse_append, List.reverse_reverse]
  rfl

theorem absolute_eq (p : Path) :
    ∃ root, root ≠ .relative ∧ p.absolute = normalize ⟨root, p.parts⟩ := by
  rw [absolute]
  split
  · exact ⟨.single, by decide, rfl⟩
  · next hroot => exact ⟨p.root, hroot, rfl⟩

theorem notMem_absolute (p : Path) : ".." ∉ p.absolute.parts := by
  obtain ⟨root, hroot, habsolute⟩ := p.absolute_eq
  rw [habsolute, Path.normalize, List.mem_reverse]
  exact (settled_resolve root p.parts).notMem_up hroot

theorem absolute_down {way : List String} (hway : ".." ∉ way) :
    (p.down way).absolute = p.absolute.down way := by
  rw [absolute, absolute, down_root]
  split
  · exact normalize_down (p := ⟨.single, p.parts⟩) hway
  · exact normalize_down hway

theorem Spelled.absolute (h : p.Spelled) : p.absolute.Spelled := by
  obtain ⟨root, -, habsolute⟩ := p.absolute_eq
  rw [habsolute]
  exact Spelled.normalize (p := ⟨root, p.parts⟩) h

theorem commonLength_le (as bs : List String) : commonLength as bs ≤ as.length := by
  fun_induction commonLength as bs <;> grind

theorem take_commonLength (as bs : List String) :
    bs.take (commonLength as bs) = as.take (commonLength as bs) := by
  fun_induction commonLength as bs <;> grind

theorem Spelled.relativeTo (h : p.Spelled) (start : Path) : (p.relativeTo start).Spelled := by
  intro part hpart
  rcases List.mem_append.mp hpart with hup | hname
  · rw [List.eq_of_mem_replicate hup]
    exact isPart_up
  · exact h.absolute part (List.mem_of_mem_drop hname)

theorem replicate_append_inj {α : Type} [DecidableEq α] {a : α} {n m : ℕ} {as bs : List α}
    (has : a ∉ as) (hbs : a ∉ bs) (h : List.replicate n a ++ as = List.replicate m a ++ bs) :
    n = m ∧ as = bs := by
  have hcount := congrArg (List.count a) h
  simp only [List.count_append, List.count_replicate_self, List.count_eq_zero.mpr has,
    List.count_eq_zero.mpr hbs] at hcount
  obtain rfl : n = m := hcount
  exact ⟨rfl, List.append_cancel_left h⟩

theorem eq_take_append_drop (as bs : List String) :
    bs = as.take (commonLength as bs) ++ bs.drop (commonLength as bs) := by
  rw [← take_commonLength, List.take_append_drop]

theorem absolute_of_relativeTo {start : Path} (h : p.relativeTo start = q.relativeTo start) :
    p.absolute.parts = q.absolute.parts := by
  have hparts := congrArg Path.parts h
  have hnames := p.notMem_absolute
  have hnames' := q.notMem_absolute
  simp only [relativeTo] at hparts
  generalize start.absolute.parts = source at hparts
  generalize p.absolute.parts = target at hparts hnames ⊢
  generalize q.absolute.parts = target' at hparts hnames' ⊢
  -- As no part `..` is left in absolute paths, those of the way are all at its beginning.
  obtain ⟨hups, hrest⟩ := replicate_append_inj (fun hup => hnames (List.mem_of_mem_drop hup))
    (fun hup => hnames' (List.mem_of_mem_drop hup)) hparts
  have hcommon : commonLength source target = commonLength source target' := by
    have hle := commonLength_le source target
    have hle' := commonLength_le source target'
    omega
  rw [eq_take_append_drop source target, hrest, hcommon, ← eq_take_append_drop]

/-- Paths beneath one path are told apart by the ways to them, also as texts. -/
theorem down_inj_of_relativeTo {start : Path} {way way' : List String}
    (hspelled : (p.down way).Spelled) (hspelled' : (p.down way').Spelled)
    (hway : ".." ∉ way) (hway' : ".." ∉ way')
    (h : ((p.down way).relativeTo start).text = ((p.down way').relativeTo start).text) :
    way = way' := by
  have hrelative := congrArg ofString h
  rw [(hspelled.relativeTo start).ofString_text, (hspelled'.relativeTo start).ofString_text]
    at hrelative
  have hparts := absolute_of_relativeTo hrelative
  rw [absolute_down hway, absolute_down hway', down_parts, down_parts] at hparts
  exact List.append_cancel_left hparts

end Path

end JavaProfile
