import Mathlib.Data.List.Infix
import JavaProfile.Architecture.Module
import JavaProfile.Proofs.Text.Split

/-!
Package names as the lists of their pieces: a package lies in another if its name starts with all
pieces of the other one. Packages are ordered this way, those around one package are a chain, and a
package below another lies in exactly one child of it.
-/

namespace JavaProfile

theorem prefix_concat_iff {γ : Type} {l l' : List γ} {x : γ} :
    l ++ [x] <+: l' ↔ l <+: l' ∧ l'[l.length]? = some x := by
  constructor
  · rintro ⟨rest, rfl⟩
    simp
  · rintro ⟨⟨rest, rfl⟩, hnext⟩
    rw [List.prefix_append_right_inj]
    cases rest with
    | nil => simp at hnext
    | cons p rest => simpa [List.cons_prefix_cons, eq_comm] using hnext

namespace Package

variable {name base segment p q : String} {ps : List String}

theorem pieces_ne_nil (name : String) : pieces name ≠ [] := by
  simp [pieces, Text.pieces, Text.splitOn_ne_nil]

theorem notMem_pieces {p : String} (h : p ∈ pieces name) : '.' ∉ p.toList := by
  obtain ⟨cs, hcs, rfl⟩ := List.mem_map.mp h
  rw [String.toList_ofList]
  exact Text.notMem_splitOn _ _ cs hcs

theorem pieces_ofPieces (hne : ps ≠ []) (hps : ∀ p ∈ ps, '.' ∉ p.toList) :
    pieces (ofPieces ps) = ps := by
  rw [pieces, Text.pieces, ofPieces, String.toList_ofList,
    Text.splitOn_joinWith (by simpa using hne) (by simpa using hps), List.map_map]
  simp [Function.comp_def]

theorem pieces_injective : Function.Injective pieces := by
  intro name other h
  rw [← ofPieces_pieces name, h, ofPieces_pieces]

theorem length_pieces (name : String) : (pieces name).length = depth name + 1 := by
  rw [pieces, Text.pieces, depth, List.length_map]
  induction name.toList with
  | nil => rfl
  | cons c cs ih =>
    rw [Text.splitOn]
    split
    · next heq => simp [heq, ih]
    · next hne =>
      rw [List.count_cons_of_ne hne, ← ih]
      cases hcs : Text.splitOn '.' cs with
      | nil => exact absurd hcs (Text.splitOn_ne_nil _ cs)
      | cons p ps => rfl

/-! ### Names below a base -/

theorem pieces_append (base name : String) :
    pieces (base ++ "." ++ name) = pieces base ++ pieces name :=
  Text.pieces_append '.' base name

theorem ofPieces_cons (base : String) (hne : ps ≠ []) :
    ofPieces (base :: ps) = base ++ "." ++ ofPieces ps := by
  apply String.toList_injective
  have hpoint : ".".toList = ['.'] := rfl
  simp [ofPieces, Text.joinWith_cons '.' base.toList (show ps.map String.toList ≠ [] by simpa),
    hpoint]

theorem pieces_ofPieces_cons (base : String) (hne : ps ≠ []) (hps : ∀ p ∈ ps, '.' ∉ p.toList) :
    pieces (ofPieces (base :: ps)) = pieces base ++ ps := by
  rw [ofPieces_cons base hne, pieces_append, pieces_ofPieces hne hps]

theorem pieces_child (hbase : base ≠ "") (hsegment : '.' ∉ segment.toList) :
    pieces (child base segment) = pieces base ++ [segment] := by
  rw [child, if_neg hbase, pieces_append, pieces, pieces, Text.pieces_of_notMem hsegment]

theorem isWithin_iff : isWithin name base ↔ pieces base <+: pieces name := by
  rw [isWithin, Bool.or_eq_true, beq_iff_eq, Text.startsWith, List.isPrefixOf_iff_prefix]
  constructor
  · rintro (rfl | ⟨cs, hcs⟩)
    · exact List.prefix_rfl
    · have hname : name = base ++ "." ++ String.ofList cs := by
        apply String.toList_injective
        simp only [← hcs, String.toList_append, String.toList_ofList]
      rw [hname, pieces_append]
      exact List.prefix_append _ _
  · rintro ⟨ps, hps⟩
    by_cases hne : ps = []
    · left
      apply pieces_injective
      rw [← hps, hne, List.append_nil]
    · right
      have hpoint : ∀ p ∈ ps, '.' ∉ p.toList := by
        intro p hp
        have hmem : p ∈ pieces name := by
          rw [← hps]
          exact List.mem_append_right _ hp
        exact notMem_pieces hmem
      have hname : name = base ++ "." ++ ofPieces ps := by
        apply pieces_injective
        rw [pieces_append, pieces_ofPieces hne hpoint, hps]
      simp only [hname, String.toList_append]
      exact List.prefix_append _ _

/-! ### Segments -/

theorem ofPieces_segments (name : String) : ofPieces (segments name) = name := by
  rw [segments]
  split
  · next hempty =>
    rw [hempty]
    rfl
  · exact ofPieces_pieces name

theorem segments_injective : Function.Injective segments :=
  Function.LeftInverse.injective ofPieces_segments

theorem notMem_segments (h : p ∈ segments name) : '.' ∉ p.toList := by
  rw [segments] at h
  split at h
  · cases h
  · exact notMem_pieces h

/-- Where there is a base package, only the names in it have a first segment below it. -/
theorem segments_prefix_iff (hbase : base ≠ "") :
    segments base <+: segments name ↔ isWithin name base := by
  rw [isWithin_iff, segments, if_neg hbase, segments]
  split
  · next hname =>
    have hnone : ¬ pieces base <+: pieces name := by
      intro h
      apply hbase
      rw [hname] at h
      rw [← ofPieces_pieces base, h.eq_of_length_le (List.length_pos_iff.mpr (pieces_ne_nil base))]
      rfl
    simp [List.prefix_nil, pieces_ne_nil, hnone]
  · rfl

/-! ### Order -/

theorem isWithin_refl (name : String) : isWithin name name :=
  isWithin_iff.mpr List.prefix_rfl

theorem isWithin_trans {a b c : String} (h : isWithin a b) (h' : isWithin b c) : isWithin a c :=
  isWithin_iff.mpr ((isWithin_iff.mp h').trans (isWithin_iff.mp h))

theorem isWithin_antisymm {a b : String} (h : isWithin a b) (h' : isWithin b a) : a = b := by
  have hshorter := isWithin_iff.mp h'
  exact pieces_injective (hshorter.eq_of_length_le (isWithin_iff.mp h).length_le)

/-- The packages around one package are a chain. -/
theorem isWithin_or_isWithin {a b : String} (h : isWithin name a) (h' : isWithin name b) :
    isWithin a b ∨ isWithin b a := by
  rw [isWithin_iff, isWithin_iff]
  exact (List.prefix_or_prefix_of_prefix (isWithin_iff.mp h) (isWithin_iff.mp h')).symm

/-! ### Children -/

theorem pieces_child_eq (base : String) (hp : '.' ∉ p.toList) :
    pieces (child base p) = segments base ++ [p] := by
  rw [segments]
  split
  · next hempty =>
    rw [child, if_pos hempty]
    exact Text.pieces_of_notMem hp
  · next hbase => exact pieces_child hbase hp

theorem child_ne_empty (hbase : base ≠ "") (p : String) : child base p ≠ "" := by
  rw [child, if_neg hbase]
  simp

theorem segments_child (hbase : base ≠ "") (hp : '.' ∉ p.toList) :
    segments (child base p) = segments base ++ [p] := by
  rw [← pieces_child_eq base hp, segments, if_neg (child_ne_empty hbase p)]

theorem isWithin_child_iff (base : String) (hp : '.' ∉ p.toList) :
    isWithin name (child base p) ↔ segments base ++ [p] <+: pieces name := by
  rw [isWithin_iff, pieces_child_eq base hp]

theorem isWithin_child_segments (hbase : base ≠ "") (hp : '.' ∉ p.toList) :
    isWithin name (child base p) ↔ segments base ++ [p] <+: segments name := by
  rw [← segments_prefix_iff (child_ne_empty hbase p), segments_child hbase hp]

theorem child_unique (hp : '.' ∉ p.toList) (hq : '.' ∉ q.toList)
    (h : isWithin name (child base p)) (h' : isWithin name (child base q)) : p = q := by
  rw [isWithin_child_iff base hp] at h
  rw [isWithin_child_iff base hq] at h'
  have heq : segments base ++ [p] = segments base ++ [q] :=
    (List.prefix_of_prefix_length_le h h' (by simp)).eq_of_length (by simp)
  simpa using heq

theorem segmentBelow?_eq_some_iff (hbase : base ≠ "") (hwithin : isWithin name base) :
    Scan.segmentBelow? base name = some p ↔ '.' ∉ p.toList ∧ isWithin name (child base p) := by
  have hstart := (segments_prefix_iff hbase).mpr hwithin
  constructor
  · intro hp
    have hpoint : '.' ∉ p.toList := notMem_segments (List.mem_of_getElem? hp)
    exact ⟨hpoint, (isWithin_child_segments hbase hpoint).mpr (prefix_concat_iff.mpr ⟨hstart, hp⟩)⟩
  · rintro ⟨hpoint, hchild⟩
    exact (prefix_concat_iff.mp ((isWithin_child_segments hbase hpoint).mp hchild)).2

theorem exists_segmentBelow (hbase : base ≠ "") (hwithin : isWithin name base) (hne : name ≠ base) :
    ∃ p, Scan.segmentBelow? base name = some p := by
  obtain ⟨rest, hrest⟩ := (segments_prefix_iff hbase).mpr hwithin
  rw [Scan.segmentBelow?, ← hrest]
  cases rest with
  | nil =>
    rw [List.append_nil] at hrest
    exact absurd (segments_injective hrest.symm) hne
  | cons p rest => exact ⟨p, by simp⟩

/-- A package lies in another if the segments of its name start with those of the other one. This
orders the packages, those around one package are a chain, and a package below a base package lies
in one child of it: the one named by its first segment after those of the base. -/
theorem isWithin_segments :
    (∀ name base, base ≠ "" → (isWithin name base ↔ segments base <+: segments name)) ∧
      (∀ name, isWithin name name) ∧
      (∀ a b c, isWithin a b → isWithin b c → isWithin a c) ∧
      (∀ a b, isWithin a b → isWithin b a → a = b) ∧
      (∀ name a b, isWithin name a → isWithin name b → isWithin a b ∨ isWithin b a) ∧
      ∀ name base, base ≠ "" → isWithin name base → name ≠ base →
        ∃ m, Scan.segmentBelow? base name = some m ∧
          ∀ m', '.' ∉ m'.toList ∧ isWithin name (child base m') ↔ m' = m := by
  refine ⟨fun _ _ hbase => (segments_prefix_iff hbase).symm, isWithin_refl,
    fun _ _ _ => isWithin_trans, fun _ _ => isWithin_antisymm, fun _ _ _ => isWithin_or_isWithin, ?_⟩
  intro name base hbase hwithin hne
  obtain ⟨m, hm⟩ := exists_segmentBelow hbase hwithin hne
  refine ⟨m, hm, fun m' => ?_⟩
  rw [← segmentBelow?_eq_some_iff hbase hwithin, hm, Option.some.injEq, eq_comm]

/-- A name that only looks alike is not around a package, and one with an empty segment is. -/
theorem isWithin_segments_shop :
    (isWithin "shop.orders.api" "shop.order" = false ∧
        ¬ segments "shop.order" <+: segments "shop.orders.api") ∧
      isWithin "shop..api" "shop" ∧
      ∀ m, '.' ∉ m.toList ∧ isWithin "shop..api" (child "shop" m) ↔ m = "" := by
  obtain ⟨hiff, -, -, -, -, hbelow⟩ := isWithin_segments
  have hapart : isWithin "shop.orders.api" "shop.order" = false := by decide +kernel
  have hwithin : isWithin "shop..api" "shop" := by decide +kernel
  obtain ⟨m, hm, hunique⟩ := hbelow "shop..api" "shop" (by decide) hwithin (by decide)
  have hempty : Scan.segmentBelow? "shop" "shop..api" = some "" := by decide +kernel
  obtain rfl := Option.some.inj (hm.symm.trans hempty)
  refine ⟨⟨hapart, ?_⟩, hwithin, hunique⟩
  rw [← hiff _ _ (by decide), hapart]
  exact Bool.false_ne_true

end Package

end JavaProfile
