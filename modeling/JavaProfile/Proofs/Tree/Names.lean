import Mathlib.Data.List.Basic
import JavaProfile.Proofs.Text.Split
import JavaProfile.Tree.Memory

/-!
Paths as texts. The last name of a path stays its last name when the path is written as a text, read
and resolved again, and a path whose parts are all names is the same then.
-/

namespace JavaProfile

/-- A part of a path that a text can have. -/
structure IsPart (part : String) : Prop where
  noSeparator : '/' ∉ part.toList
  ne_empty : part ≠ ""
  ne_here : part ≠ "."

/-- A part of a path that names a file or directory. -/
structure IsName (part : String) : Prop where
  noSeparator : '/' ∉ part.toList
  ne_empty : part ≠ ""
  ne_here : part ≠ "."
  ne_up : part ≠ ".."

theorem isName_iff {part : String} :
    IsName part ↔ '/' ∉ part.toList ∧ part ≠ "" ∧ part ≠ "." ∧ part ≠ ".." :=
  ⟨fun h => ⟨h.noSeparator, h.ne_empty, h.ne_here, h.ne_up⟩,
    fun ⟨hsep, hempty, hhere, hup⟩ => ⟨hsep, hempty, hhere, hup⟩⟩

theorem IsName.isPart {part : String} (h : IsName part) : IsPart part :=
  ⟨h.noSeparator, h.ne_empty, h.ne_here⟩

instance (part : String) : Decidable (IsName part) :=
  decidable_of_iff _ isName_iff.symm

namespace Path

variable {part : String}

theorem text_append (root : Root) {parts : List String} (hparts : parts ≠ []) (part : String) :
    (Path.mk root (parts ++ [part])).text =
      root.text ++ String.intercalate "/" parts ++ "/" ++ part := by
  have hne : parts ++ [part] ≠ [] := by simp
  rw [text, if_neg fun h => hne h.2, String.intercalate_append_of_ne_nil hparts (by simp),
    String.intercalate_singleton]
  simp only [String.append_assoc]

theorem parts_ofString_append (s : String) (hpart : IsName part) :
    (ofString (s ++ "/" ++ part)).parts = (ofString s).parts ++ [part] := by
  have hsep : "/" = String.singleton '/' := rfl
  rw [ofString, hsep, Text.pieces_append, Text.pieces_of_notMem hpart.noSeparator,
    List.filter_append, List.filter_singleton]
  simp [ofString, hpart.ne_empty, hpart.ne_here]

theorem resolveStep_name (root : Root) (done : List String) (hpart : part ≠ "..") :
    resolveStep root done part = part :: done :=
  if_pos hpart

theorem name_normalize {p : Path} {parts : List String} (h : p.parts = parts ++ [part])
    (hpart : part ≠ "..") : p.normalize.name = part := by
  rw [name, normalize, h, List.foldl_append, List.foldl_cons, List.foldl_nil,
    resolveStep_name _ _ hpart]
  simp

end Path

theorem MemoryTree.name_key (s : String) {part : String} (hpart : IsName part) :
    (key (s ++ "/" ++ part)).name = part :=
  Path.name_normalize (Path.parts_ofString_append s hpart) hpart.ne_up

end JavaProfile

namespace JavaProfile.Path

/-- The path of what lies some names beneath another. -/
def down (p : Path) (way : List String) : Path :=
  ⟨p.root, p.parts ++ way⟩

@[simp]
theorem down_root (p : Path) (way : List String) : (p.down way).root = p.root := rfl

@[simp]
theorem down_parts (p : Path) (way : List String) : (p.down way).parts = p.parts ++ way := rfl

theorem down_down (p : Path) (way rest : List String) :
    (p.down way).down rest = p.down (way ++ rest) := by
  simp [down]

theorem down_inj {p : Path} {way way' : List String} : p.down way = p.down way' ↔ way = way' := by
  simp [down]

theorem isBeneath_iff {p q : Path} : p.isBeneath q = true ↔ ∃ way, way ≠ [] ∧ p = q.down way := by
  simp only [isBeneath, Bool.and_eq_true, decide_eq_true_eq, List.isPrefixOf_iff_prefix]
  constructor
  · rintro ⟨⟨hroot, hlength⟩, way, hway⟩
    refine ⟨way, ?_, ?_⟩
    · rintro rfl
      simp [← hway] at hlength
    · rw [down, ← hroot, hway]
  · rintro ⟨way, hne, rfl⟩
    refine ⟨⟨rfl, ?_⟩, List.prefix_append _ _⟩
    simpa [List.length_pos_iff] using hne

theorem mem_parents_iff {p q : Path} : q ∈ p.parents ↔ p.isBeneath q = true := by
  simp only [parents, isBeneath, Bool.and_eq_true, decide_eq_true_eq, List.mem_map, List.mem_range,
    List.isPrefixOf_iff_prefix]
  constructor
  · rintro ⟨n, hn, rfl⟩
    exact ⟨⟨rfl, by rw [List.length_take]; omega⟩, List.take_prefix _ _⟩
  · rintro ⟨⟨hroot, hlength⟩, hprefix⟩
    refine ⟨q.parts.length, hlength, ?_⟩
    rw [hroot, ← List.prefix_iff_eq_take.mp hprefix]

/-- All parts are names. -/
def Named (p : Path) : Prop :=
  ∀ part ∈ p.parts, IsName part

variable {p : Path}

theorem Named.down (h : p.Named) {way : List String} (hway : ∀ part ∈ way, IsName part) :
    (p.down way).Named := by
  intro part hpart
  rcases List.mem_append.mp hpart with hp | hw
  · exact h part hp
  · exact hway part hw

theorem pieces_intercalate {parts : List String} (hne : parts ≠ [])
    (h : ∀ part ∈ parts, '/' ∉ part.toList) :
    Text.pieces '/' (String.intercalate "/" parts) = parts := by
  induction parts with
  | nil => exact absurd rfl hne
  | cons part parts ih =>
    have hpart := Text.pieces_of_notMem (h part List.mem_cons_self)
    by_cases hlast : parts = []
    · rw [hlast, String.intercalate_singleton, hpart]
    · have hsep : "/" = String.singleton '/' := rfl
      rw [String.intercalate_cons_of_ne_nil hlast, hsep, Text.pieces_append, hpart, ← hsep,
        ih hlast fun q hq => h q (List.mem_cons_of_mem _ hq)]
      rfl

theorem head_intercalate {parts : List String} (hne : parts ≠ [])
    (h : ∀ part ∈ parts, IsPart part) :
    ∃ c cs, (String.intercalate "/" parts).toList = c :: cs ∧ c ≠ '/' := by
  obtain ⟨part, rest, rfl⟩ := List.exists_cons_of_ne_nil hne
  have hpart := h part List.mem_cons_self
  obtain ⟨c, cs, hcs⟩ : ∃ c cs, part.toList = c :: cs := by
    apply List.exists_cons_of_ne_nil
    intro hnil
    exact hpart.ne_empty (String.toList_eq_nil_iff.mp hnil)
  have hc : c ≠ '/' := by
    rintro rfl
    exact hpart.noSeparator (by simp [hcs])
  by_cases hlast : rest = []
  · exact ⟨c, cs, by rw [hlast, String.intercalate_singleton, hcs], hc⟩
  · refine ⟨c, cs ++ ("/" ++ String.intercalate "/" rest).toList, ?_, hc⟩
    rw [String.intercalate_cons_of_ne_nil hlast, String.append_assoc, String.toList_append, hcs]
    rfl

theorem rootOf_text (root : Root) {s : String} {c : Char} {cs : List Char}
    (hs : s.toList = c :: cs) (hc : c ≠ '/') : rootOf (root.text ++ s).toList = root := by
  rw [String.toList_append, hs]
  cases root with
  | relative =>
    change rootOf (c :: cs) = _
    rw [rootOf.eq_4]
    all_goals simp [hc]
  | single =>
    change rootOf ('/' :: c :: cs) = _
    rw [rootOf.eq_3]
    all_goals simp [hc]
  | double =>
    change rootOf ('/' :: '/' :: c :: cs) = _
    rw [rootOf, if_neg hc]

theorem filter_pieces_append (root : Root) (s : String) :
    (Text.pieces '/' (root.text ++ s)).filter (fun part => part ≠ "" && part ≠ ".") =
      (Text.pieces '/' s).filter (fun part => part ≠ "" && part ≠ ".") := by
  have hdrop (s : String) :
      (Text.pieces '/' ("" ++ String.singleton '/' ++ s)).filter
          (fun part => part ≠ "" && part ≠ ".") =
        (Text.pieces '/' s).filter (fun part => part ≠ "" && part ≠ ".") := by
    rw [Text.pieces_append]
    rfl
  cases root with
  | relative => rw [Root.text, String.empty_append]
  | single => exact hdrop s
  | double =>
    have hroot : Root.double.text ++ s =
        "" ++ String.singleton '/' ++ ("" ++ String.singleton '/' ++ s) := by
      simp only [String.empty_append, ← String.append_assoc]
      rfl
    rw [hroot, hdrop, hdrop]

/-- All parts are ones that a text can have. -/
def Spelled (p : Path) : Prop :=
  ∀ part ∈ p.parts, IsPart part

/-- A path is written as a text that is read as that path. -/
theorem Spelled.ofString_text (h : p.Spelled) : ofString p.text = p := by
  obtain ⟨root, parts⟩ := p
  by_cases hnone : parts = []
  · rw [hnone]
    cases root <;> decide +kernel
  · have hkept : parts.filter (fun part => part ≠ "" && part ≠ ".") = parts := by
      apply List.filter_eq_self.mpr
      intro part hpart
      simp [(h part hpart).ne_empty, (h part hpart).ne_here]
    obtain ⟨c, cs, hcs, hc⟩ := head_intercalate hnone h
    rw [text, if_neg fun h => hnone h.2, ofString, rootOf_text root hcs hc, filter_pieces_append,
      pieces_intercalate hnone fun part hpart => (h part hpart).noSeparator, hkept]

theorem Named.spelled (h : p.Named) : p.Spelled :=
  fun part hpart => (h part hpart).isPart

theorem Named.ofString_text (h : p.Named) : ofString p.text = p :=
  h.spelled.ofString_text

theorem resolve_names (root : Root) (done : List String) {way : List String}
    (hway : ∀ name ∈ way, name ≠ "..") :
    way.foldl (resolveStep root) done = way.reverse ++ done := by
  induction way generalizing done with
  | nil => rfl
  | cons name way ih =>
    rw [List.foldl_cons, resolveStep_name _ _ (hway name List.mem_cons_self),
      ih _ fun q hq => hway q (List.mem_cons_of_mem _ hq)]
    simp

theorem Named.normalize (h : p.Named) : p.normalize = p := by
  rw [Path.normalize, resolve_names p.root [] fun part hpart => (h part hpart).ne_up,
    List.append_nil, List.reverse_reverse]

theorem Named.key_text (h : p.Named) : MemoryTree.key p.text = p := by
  rw [MemoryTree.key, h.ofString_text, h.normalize]

end JavaProfile.Path
