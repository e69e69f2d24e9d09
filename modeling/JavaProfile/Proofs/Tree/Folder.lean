import Mathlib.Data.List.Induction
import Mathlib.Data.List.Nodup
import JavaProfile.Proofs.Tree.Names
import JavaProfile.Proofs.Tree.Order
import JavaProfile.Proofs.Tree.Overwriting

/-!
What lies in a directory, apart from the tree that holds it.
-/

namespace JavaProfile

theorem lookup_eq_some_iff_mem {α β : Type} [BEq α] [LawfulBEq α] {l : List (α × β)}
    (h : (l.map Prod.fst).Nodup) {a : α} {b : β} : l.lookup a = some b ↔ (a, b) ∈ l := by
  induction l with
  | nil => simp
  | cons x l ih =>
    obtain ⟨a', b'⟩ := x
    obtain ⟨hnot, hrest⟩ := List.nodup_cons.mp h
    rw [List.lookup_cons, List.mem_cons, Prod.mk.injEq]
    by_cases heq : a = a'
    · have hnone : (a, b) ∉ l := fun hmem => hnot (List.mem_map.mpr ⟨(a, b), hmem, heq⟩)
      simp [heq, eq_comm, heq ▸ hnone]
    · rw [beq_eq_false_iff_ne.mpr heq]
      simp [heq, ih hrest]

theorem nodup_map_filterMap {α β κ κ' : Type} {f : α → Option β} {key : α → κ} {key' : β → κ'}
    {l : List α} (h : (l.map key).Nodup)
    (hkey : ∀ a ∈ l, ∀ a' ∈ l, ∀ b b', f a = some b → f a' = some b' →
      key' b = key' b' → key a = key a') :
    ((l.filterMap f).map key').Nodup := by
  rw [List.Nodup, List.pairwise_map] at h ⊢
  rw [List.pairwise_filterMap]
  apply h.imp_of_mem
  intro a a' ha ha' hne b hb b' hb' heq
  exact hne (hkey a ha a' ha' b b' hb hb' heq)

/-- Texts in files and directories, by the names on the way to each. -/
structure Folder where
  files : List (List String × String)
  directories : List (List String)
  distinct : (files.map Prod.fst).Nodup
  root : [] ∈ directories
  around : ∀ way ∈ files.map Prod.fst ++ directories, way.dropLast ∈ directories
  apart : ∀ f ∈ files, f.1 ∉ directories
  named : ∀ way ∈ files.map Prod.fst ++ directories, ∀ name ∈ way, IsName name

namespace Folder

/-- The ways to all files and directories. -/
def ways (F : Folder) : List (List String) :=
  F.files.map Prod.fst ++ F.directories

variable {F : Folder} {way rest : List String} {text : String}

theorem mem_ways_of_file (h : (way, text) ∈ F.files) : way ∈ F.ways :=
  List.mem_append_left _ (List.mem_map_of_mem h)

theorem mem_ways_of_directory (h : way ∈ F.directories) : way ∈ F.ways :=
  List.mem_append_right _ h

theorem mem_directories_of_append (h : way ++ rest ∈ F.directories) : way ∈ F.directories := by
  induction rest using List.reverseRec with
  | nil => simpa using h
  | append_singleton rest name ih =>
    apply ih
    have hdrop := F.around _ (mem_ways_of_directory h)
    rwa [← List.append_assoc, List.dropLast_concat] at hdrop

theorem mem_directories_of_file (h : (way ++ rest, text) ∈ F.files) (hrest : rest ≠ []) :
    way ∈ F.directories := by
  obtain ⟨before, name, rfl⟩ := (List.eq_nil_or_concat' rest).resolve_left hrest
  have hdrop := F.around _ (mem_ways_of_file h)
  rw [← List.append_assoc, List.dropLast_concat] at hdrop
  exact mem_directories_of_append hdrop

/-- What lies behind a way: a directory, or a file with its text. -/
def node? (F : Folder) (way : List String) : Option Node :=
  if way ∈ F.directories then some .directory
  else (F.files.lookup way).map fun text => .file (Text.encode text)

theorem node?_directory (h : way ∈ F.directories) : F.node? way = some .directory :=
  if_pos h

theorem node?_file (h : (way, text) ∈ F.files) : F.node? way = some (.file (Text.encode text)) := by
  rw [node?, if_neg (F.apart _ h), (lookup_eq_some_iff_mem F.distinct).mpr h]
  rfl

theorem node?_eq_some {n : Node} : F.node? way = some n ↔
    (∃ text, (way, text) ∈ F.files ∧ n = .file (Text.encode text)) ∨
      (way ∈ F.directories ∧ n = .directory) := by
  constructor
  · intro h
    rw [node?] at h
    split at h
    · next hdirectory => exact .inr ⟨hdirectory, (Option.some.inj h).symm⟩
    · obtain ⟨text, htext, hn⟩ := Option.map_eq_some_iff.mp h
      exact .inl ⟨text, (lookup_eq_some_iff_mem F.distinct).mp htext, hn.symm⟩
  · rintro (⟨text, hfile, rfl⟩ | ⟨hdirectory, rfl⟩)
    · exact node?_file hfile
    · exact node?_directory hdirectory

theorem file_of_node? {n : Node} (hway : way ∉ F.directories) (h : F.node? way = some n) :
    ∃ bytes, n = .file bytes := by
  rw [node?, if_neg hway] at h
  obtain ⟨text, -, rfl⟩ := Option.map_eq_some_iff.mp h
  exact ⟨_, rfl⟩

theorem node?_append (hrest : rest ≠ []) (hway : way ∉ F.directories) :
    F.node? (way ++ rest) = none := by
  rw [node?, if_neg fun h => hway (mem_directories_of_append h), Option.map_eq_none_iff]
  by_contra hsome
  obtain ⟨text, htext⟩ := Option.ne_none_iff_exists'.mp hsome
  exact hway (mem_directories_of_file ((lookup_eq_some_iff_mem F.distinct).mp htext) hrest)

/-! ### Beneath a directory -/

/-- The files whose ways begin with one, by the rest of their ways. -/
def beneath (F : Folder) (way : List String) : List (List String × String) :=
  F.files.filterMap fun f => if way <+: f.1 then some (f.1.drop way.length, f.2) else none

theorem mem_beneath : (rest, text) ∈ F.beneath way ↔ (way ++ rest, text) ∈ F.files := by
  rw [beneath, List.mem_filterMap]
  constructor
  · rintro ⟨⟨_, text'⟩, hf, hsome⟩
    dsimp only at hsome
    split at hsome
    · next hprefix =>
      obtain ⟨rest', rfl⟩ := hprefix
      cases hsome
      simpa using hf
    · cases hsome
  · intro h
    refine ⟨_, h, ?_⟩
    simp

theorem nodup_beneath (F : Folder) (way : List String) : ((F.beneath way).map Prod.fst).Nodup := by
  apply nodup_map_filterMap F.distinct
  intro f _ f' _ b b' hb hb' heq
  split at hb <;> cases hb
  split at hb' <;> cases hb'
  next hprefix hprefix' =>
    rw [← List.prefix_iff_eq_append.mp hprefix, ← List.prefix_iff_eq_append.mp hprefix']
    exact congrArg (way ++ ·) heq

theorem beneath_apart (F : Folder) (way : List String) :
    ∀ x ∈ (F.beneath way).map Prod.fst, ∀ y ∈ (F.beneath way).map Prod.fst, x <+: y → x = y := by
  intro x hx y hy hprefix
  obtain ⟨⟨_, s⟩, hs, rfl⟩ := List.mem_map.mp hx
  obtain ⟨⟨_, s'⟩, hs', rfl⟩ := List.mem_map.mp hy
  obtain ⟨rest, hrest⟩ := hprefix
  dsimp only at hrest ⊢
  rw [mem_beneath] at hs hs'
  by_contra hne
  have hnil : rest ≠ [] := by
    rintro rfl
    exact hne (by simpa using hrest)
  rw [← hrest, ← List.append_assoc] at hs'
  exact F.apart _ hs (mem_directories_of_file hs' hnil)

end Folder

/-! ### Trees that hold it -/

/-- A path that a disk follows: no name and not the whole of it is too long. -/
structure DiskTree.Fits (p : Path) : Prop where
  noNul : '\x00' ∉ p.text.toList
  short : p.text.utf8ByteSize < maxPathBytes
  names : ∀ part ∈ p.parts, part.utf8ByteSize ≤ maxNameBytes

theorem DiskTree.fits_iff {p : Path} :
    Fits p ↔ '\x00' ∉ p.text.toList ∧ p.text.utf8ByteSize < maxPathBytes ∧
      ∀ part ∈ p.parts, part.utf8ByteSize ≤ maxNameBytes :=
  ⟨fun h => ⟨h.noNul, h.short, h.names⟩, fun ⟨hnul, hshort, hnames⟩ => ⟨hnul, hshort, hnames⟩⟩

instance (p : Path) : Decidable (DiskTree.Fits p) :=
  decidable_of_iff _ DiskTree.fits_iff.symm

open DiskTree (Fits)

/-- A tree where a folder is found in a directory. Files are walked in an order of their ways. -/
structure Presents {τ : Type} [FileTree τ] (t : τ) (base : Path) (F : Folder)
    (before : List String → List String → Bool) : Prop where
  trans (x y z : List String) : before x y → before y z → before x z
  total (x y : List String) : before x y || before y x
  isDirectory {way : List String} (hnames : ∀ name ∈ way, IsName name)
    (hfits : Fits (base.down way)) :
    FileTree.isDirectory t (base.down way).text = .ok (decide (way ∈ F.directories))
  contains {way : List String} (hnames : ∀ name ∈ way, IsName name)
    (hfits : Fits (base.down way)) :
    FileTree.contains t (base.down way).text = .ok (F.node? way).isSome
  walk {way : List String} (hway : way ∈ F.directories) :
    ∃ entries, FileTree.walk t (base.down way).text = .ok entries ∧
      entries.map (fun e => (e.path, e.size)) =
        ((F.beneath way).mergeSort fun f g => before f.1 g.1).map fun f =>
          (base.down (way ++ f.1), f.2.utf8ByteSize)
  read {way : List String} {text : String} (h : (way, text) ∈ F.files) :
    ∃ shown, FileTree.read t (base.down way).text = .ok shown ∧ Text.ReadsAs text shown

theorem Presents.paths {entries : List FileEntry} {files : List (List String × String)}
    {base : Path} {way : List String} (h : entries.map (fun e => (e.path, e.size)) =
      files.map fun f => (base.down (way ++ f.1), f.2.utf8ByteSize)) :
    entries.map (·.path) = files.map fun f => base.down (way ++ f.1) := by
  have hpaths := congrArg (List.map Prod.fst) h
  rwa [List.map_map, List.map_map] at hpaths

theorem Presents.walk_texts {τ : Type} [FileTree τ] {t : τ} {base : Path} {F : Folder}
    {before : List String → List String → Bool} {way : List String} (h : Presents t base F before)
    (hway : way ∈ F.directories) :
    (FileTree.walk t (base.down way).text).map (·.map (·.path.text)) =
      .ok (((F.beneath way).mergeSort fun f g => before f.1 g.1).map
        fun f => (base.down (way ++ f.1)).text) := by
  obtain ⟨entries, hwalk, hentries⟩ := h.walk hway
  have htexts := congrArg (List.map Path.text) (paths hentries)
  rw [List.map_map, List.map_map] at htexts
  rw [hwalk]
  exact congrArg Except.ok htexts

end JavaProfile
