import JavaProfile.Proofs.Tree.Folder

/-!
A folder on a disk, which walks the files of each directory before what lies deeper.
-/

namespace JavaProfile

open DiskTree (Fits)
open Folder

variable {base : Path} {F : Folder}

namespace DiskTree

/-- A disk that holds a folder, without links in it, in the directory to which a path leads. -/
structure Holds (t : DiskTree) (base : Path) (l : Location) (F : Folder) : Prop where
  leads : t.locate .target base = .ok (.taken l .directory)
  located : t.locate .target ⟨.single, l⟩ = .ok (.taken l .directory)
  distinct : (t.nodes.map Prod.fst).Nodup
  node (way : List String) : t.node? (l ++ way) = F.node? way
  fits : ∀ way ∈ F.ways, Fits (base.down way) ∧ Fits ⟨.single, l ++ way⟩

/-- What a node adds to the files beneath a directory. -/
def found? (t : DiskTree) (l : Location) (x : Location × Node) : Option (List String × ℕ) :=
  if l.isPrefixOf x.1 ∧ x.2 ≠ .directory then
    (t.fileSize? x.1).map fun size => (x.1.drop l.length, size)
  else none

theorem filesBeneath_found (t : DiskTree) (l : Location) :
    t.filesBeneath l =
      (t.nodes.filterMap (t.found? l)).mergeSort fun a b => comesBefore a.1 b.1 :=
  rfl

theorem found?_eq_some {t : DiskTree} {l : Location} {x : Location × Node}
    {f : List String × ℕ} :
    t.found? l x = some f ↔
      x.1 = l ++ f.1 ∧ x.2 ≠ .directory ∧ t.fileSize? x.1 = some f.2 := by
  rw [found?]
  constructor
  · intro h
    split at h
    · next hcond =>
      obtain ⟨rest, hrest⟩ := List.isPrefixOf_iff_prefix.mp hcond.1
      obtain ⟨size, hsize, rfl⟩ := Option.map_eq_some_iff.mp h
      refine ⟨?_, hcond.2, hsize⟩
      rw [← hrest, List.drop_left]
    · cases h
  · rintro ⟨hway, hn, hsize⟩
    have hstart : l.isPrefixOf x.1 = true := List.isPrefixOf_iff_prefix.mpr ⟨f.1, hway.symm⟩
    rw [if_pos ⟨hstart, hn⟩, hsize, hway, Option.map_some, List.drop_left]

theorem nodup_found {t : DiskTree} (h : (t.nodes.map Prod.fst).Nodup) (l : Location) :
    ((t.nodes.filterMap (t.found? l)).map Prod.fst).Nodup := by
  apply nodup_map_filterMap h
  intro x _ x' _ f f' hf hf' heq
  rw [(found?_eq_some.mp hf).1, (found?_eq_some.mp hf').1]
  exact congrArg (l ++ ·) heq

namespace Holds

variable {t : DiskTree} {l : Location} {way done : List String} {text : String}
  (h : t.Holds base l F)

/-- How a way ends that leads through a folder to one of its nodes, or to none of them. -/
def Ends (F : Folder) (l : Location) (way : List String) (end_ : Except SystemCause Place) : Prop :=
  match F.node? way with
  | some n => end_ = .ok (.taken (l ++ way) n)
  | none => (∃ l', end_ = .ok (.free l')) ∨ end_ = .error .noEntry ∨ end_ = .error .notDirectory

include h

theorem resolve_ends (links : ℕ) (hdone : done ∈ F.directories)
    (hnames : ∀ name ∈ way, IsName name) (hshort : ∀ name ∈ way, name.utf8ByteSize ≤ maxNameBytes) :
    Ends F l (done ++ way) (resolve t .target links (l ++ done) way) := by
  -- One part after another, as long as there are directories of the folder.
  induction way generalizing done with
  | nil => rw [resolve, List.append_nil, Ends, F.node?_directory hdone]
  | cons name rest ih =>
    have henters : Enters .target name rest :=
      enters_of_isName (hnames name List.mem_cons_self) (by simp) (hshort name List.mem_cons_self)
    have hrest : ∀ name ∈ rest, IsName name := fun n hn => hnames n (List.mem_cons_of_mem _ hn)
    have hnode : t.node? (l ++ done ++ [name]) = F.node? (done ++ [name]) := by
      rw [List.append_assoc, h.node]
    have hway : done ++ name :: rest = done ++ [name] ++ rest := by simp
    rw [hway]
    by_cases hdirectory : done ++ [name] ∈ F.directories
    · rw [resolve_enter henters (hnode.trans (F.node?_directory hdirectory)), List.append_assoc l]
      exact ih hdirectory hrest fun n hn => hshort n (List.mem_cons_of_mem _ hn)
    · -- Where no directory is, the way has to end: behind a file or a free name lies nothing.
      have hbehind (hlast : rest ≠ []) : F.node? (done ++ [name] ++ rest) = none :=
        F.node?_append hlast hdirectory
      cases hfound : F.node? (done ++ [name]) with
      | none =>
        rw [hfound] at hnode
        rw [resolve_missing henters hnode]
        by_cases hlast : rest = []
        · rw [if_pos hlast, hlast, List.append_nil, Ends, hfound]
          exact .inl ⟨_, rfl⟩
        · rw [if_neg hlast, Ends, hbehind hlast]
          exact .inr (.inl rfl)
      | some n =>
        obtain ⟨bytes, rfl⟩ := F.file_of_node? hdirectory hfound
        rw [hfound] at hnode
        rw [resolve_file henters hnode]
        by_cases hlast : rest = []
        · rw [if_pos hlast, hlast, List.append_nil, Ends, hfound, List.append_assoc]
        · rw [if_neg hlast, Ends, hbehind hlast]
          exact .inr (.inr rfl)

variable {start : Path} (hfrom : t.locate .target start = .ok (.taken l .directory))
  (hnames : ∀ name ∈ way, IsName name) (hfits : Fits (start.down way))

include hfrom hnames hfits

theorem locate_eq : ∃ end_, Ends F l way end_ ∧
    t.locate .target (start.down way) = end_.mapError (.system · (start.down way).text) := by
  obtain ⟨left, hresolve⟩ :=
    resolve_append (show Aim.target ≠ .file by decide) (by simp) (locate_ok hfrom).2.2
  have hends := h.resolve_ends left F.root hnames fun name hname =>
    hfits.names name (List.mem_append_right _ hname)
  rw [List.append_nil, List.nil_append, ← hresolve] at hends
  refine ⟨_, hends, ?_⟩
  rw [locate, noNul hfits.noNul, if_neg (by decide), if_neg (not_le.mpr hfits.short)]
  rfl

theorem locate_node {n : Node} (hn : F.node? way = some n) :
    t.locate .target (start.down way) = .ok (.taken (l ++ way) n) := by
  obtain ⟨end_, hends, hlocate⟩ := h.locate_eq hfrom hnames hfits
  rw [Ends, hn] at hends
  rw [hlocate, hends]
  rfl

/-- A path is found in a tree as its way is found in the folder. -/
theorem find?_eq : t.find? (start.down way) = .ok (F.node? way) := by
  obtain ⟨end_, hends, hlocate⟩ := h.locate_eq hfrom hnames hfits
  rw [find?, hlocate]
  cases hn : F.node? way with
  | some n =>
    rw [Ends, hn] at hends
    rw [hends]
    rfl
  | none =>
    rw [Ends, hn] at hends
    rcases hends with ⟨l', rfl⟩ | rfl | rfl <;> rfl

omit hfrom hnames hfits

theorem fileSize?_eq (hfile : (way, text) ∈ F.files) :
    t.fileSize? (l ++ way) = some text.utf8ByteSize := by
  have hway := mem_ways_of_file hfile
  have hfind := h.find?_eq h.located (F.named _ hway) (h.fits _ hway).2
  change t.find? ⟨.single, l ++ way⟩ = _ at hfind
  rw [fileSize?, hfind, F.node?_file hfile]
  exact congrArg some (Text.length_encode text)

theorem mem_nodes_iff {l' : Location} {n : Node} (hl : l' ≠ []) :
    (l', n) ∈ t.nodes ↔ t.node? l' = some n := by
  rw [DiskTree.node?, if_neg hl, lookup_eq_some_iff_mem h.distinct]

theorem mem_found_iff {rest : List String} {size : ℕ} :
    (rest, size) ∈ t.nodes.filterMap (t.found? (l ++ way)) ↔
      ∃ text, (rest, text) ∈ F.beneath way ∧ text.utf8ByteSize = size := by
  rw [List.mem_filterMap]
  constructor
  · rintro ⟨⟨l', n⟩, hnode, hfound⟩
    obtain ⟨rfl, hn, hsize⟩ := found?_eq_some.mp hfound
    have hne : l ++ way ++ rest ≠ [] := by
      intro hnil
      have hl : l = [] := (List.append_eq_nil_iff.mp (List.append_eq_nil_iff.mp hnil).1).1
      have hroot := h.located
      rw [hl] at hroot
      rw [hnil, fileSize?, find?, hroot] at hsize
      cases hsize
    rw [h.mem_nodes_iff hne, List.append_assoc, h.node] at hnode
    obtain ⟨text, hfile, -⟩ := (node?_eq_some.mp hnode).resolve_right fun h => hn h.2
    rw [List.append_assoc, h.fileSize?_eq hfile] at hsize
    exact ⟨text, mem_beneath.mpr hfile, Option.some.inj hsize⟩
  · rintro ⟨text, htext, rfl⟩
    have hfile := mem_beneath.mp htext
    have hnode : t.node? (l ++ way ++ rest) = some (.file (Text.encode text)) := by
      rw [List.append_assoc, h.node, F.node?_file hfile]
    have hne : l ++ way ++ rest ≠ [] := by
      intro hnil
      rw [hnil] at hnode
      cases hnode
    have hsize := h.fileSize?_eq hfile
    rw [← List.append_assoc] at hsize
    exact ⟨(_, _), (h.mem_nodes_iff hne).mpr hnode, found?_eq_some.mpr ⟨rfl, by simp, hsize⟩⟩

theorem filesBeneath_eq (way : List String) :
    t.filesBeneath (l ++ way) =
      ((F.beneath way).mergeSort fun f g => comesBefore f.1 g.1).map
        fun f => (f.1, f.2.utf8ByteSize) := by
  rw [filesBeneath_found]
  have hnodup : ((F.beneath way).map fun f => f.1).Nodup := F.nodup_beneath way
  apply eq_of_sorted_entries comesBefore
  · exact List.pairwise_mergeSort (fun a b c => comesBefore_trans a.1 b.1 c.1)
      (fun a b => comesBefore_total a.1 b.1) _
  · rw [List.pairwise_map]
    exact List.pairwise_mergeSort (fun a b c => comesBefore_trans a.1 b.1 c.1)
      (fun a b => comesBefore_total a.1 b.1) _
  · exact (((List.mergeSort_perm _ _).map _).nodup_iff).mpr (nodup_found h.distinct _)
  · rw [List.map_map]
    exact (((List.mergeSort_perm _ _).map _).nodup_iff).mpr hnodup
  · rintro ⟨rest, size⟩
    rw [List.mem_mergeSort, h.mem_found_iff]
    simp only [List.mem_map, List.mem_mergeSort, Prod.mk.injEq, Prod.exists]
    constructor
    · rintro ⟨text, htext, hsize⟩
      exact ⟨rest, text, htext, rfl, hsize⟩
    · rintro ⟨_, text, htext, rfl, hsize⟩
      exact ⟨text, htext, hsize⟩
  · intro a _ b _ hab hba
    exact comesBefore_antisymm hab hba

theorem presents (hbase : base.Named) : Presents t base F comesBefore where
  trans := comesBefore_trans
  total := comesBefore_total
  isDirectory {way} hnames hfits := by
    change t.isDirectory (Path.ofString (base.down way).text) = _
    rw [(hbase.down hnames).ofString_text, isDirectory, h.find?_eq h.leads hnames hfits]
    by_cases hway : way ∈ F.directories
    · rw [F.node?_directory hway, decide_eq_true hway]
      rfl
    · rw [Folder.node?, if_neg hway, decide_eq_false hway]
      cases F.files.lookup way <;> rfl
  contains {way} hnames hfits := by
    change (t.find? (Path.ofString (base.down way).text)).map Option.isSome = _
    rw [(hbase.down hnames).ofString_text, h.find?_eq h.leads hnames hfits]
    rfl
  walk {way} hway := by
    have hnames := F.named _ (mem_ways_of_directory hway)
    have hfits := (h.fits _ (mem_ways_of_directory hway)).1
    change ∃ entries, t.walk (Path.ofString (base.down way).text) = .ok entries ∧ _
    rw [(hbase.down hnames).ofString_text, walk,
      h.locate_node h.leads hnames hfits (F.node?_directory hway)]
    refine ⟨_, rfl, ?_⟩
    rw [h.filesBeneath_eq, List.map_map, List.map_map]
    simp [Path.down, Function.comp_def]
  read {way text} hfile := by
    have hnames := F.named _ (mem_ways_of_file hfile)
    have hfits := (h.fits _ (mem_ways_of_file hfile)).1
    refine ⟨String.ofList (Text.unifyBreaks text.toList), ?_, .inr rfl⟩
    change t.read (Path.ofString (base.down way).text) = _
    rw [(hbase.down hnames).ofString_text, read,
      h.locate_node h.leads hnames hfits (F.node?_file hfile)]
    dsimp only
    rw [Text.decode_encode]

end Holds

end DiskTree

namespace Folder

/-- A disk with a folder at its root. -/
def onDisk (F : Folder) : DiskTree where
  nodes := (F.files.map fun f => (f.1, .file (Text.encode f.2))) ++
    F.directories.dedup.map fun way => (way, .directory)

theorem distinct_onDisk (F : Folder) : (F.onDisk.nodes.map Prod.fst).Nodup := by
  rw [onDisk, List.map_append, List.map_map, List.map_map, List.nodup_append]
  refine ⟨F.distinct, ?_, ?_⟩
  · change (F.directories.dedup.map id).Nodup
    rw [List.map_id]
    exact List.nodup_dedup _
  · intro way hway way' hway' heq
    obtain ⟨f, hf, rfl⟩ := List.mem_map.mp hway
    obtain ⟨way', hdirectory, rfl⟩ := List.mem_map.mp hway'
    apply F.apart f hf
    rw [show f.1 = way' from heq]
    exact List.mem_dedup.mp hdirectory

theorem mem_onDisk {way : List String} {n : Node} : (way, n) ∈ F.onDisk.nodes ↔
    (∃ text, (way, text) ∈ F.files ∧ n = .file (Text.encode text)) ∨
      (way ∈ F.directories ∧ n = .directory) := by
  rw [onDisk, List.mem_append, List.mem_map, List.mem_map]
  apply or_congr
  · constructor
    · rintro ⟨f, hf, heq⟩
      cases heq
      exact ⟨f.2, hf, rfl⟩
    · rintro ⟨text, hfile, rfl⟩
      exact ⟨_, hfile, rfl⟩
  · constructor
    · rintro ⟨way', hdirectory, heq⟩
      cases heq
      exact ⟨List.mem_dedup.mp hdirectory, rfl⟩
    · rintro ⟨hdirectory, rfl⟩
      exact ⟨way, List.mem_dedup.mpr hdirectory, rfl⟩

theorem holds_onDisk (hfits : ∀ way ∈ F.ways, DiskTree.Fits ⟨.single, way⟩) :
    F.onDisk.Holds ⟨.single, []⟩ [] F where
  leads := by
    apply DiskTree.locate_of_resolve (DiskTree.noNul (by decide +kernel)) (by decide +kernel)
    rw [DiskTree.resolve]
    rfl
  located := by
    apply DiskTree.locate_of_resolve (DiskTree.noNul (by decide +kernel)) (by decide +kernel)
    rw [DiskTree.resolve]
    rfl
  distinct := F.distinct_onDisk
  node way := by
    rw [List.nil_append, DiskTree.node?]
    by_cases hnil : way = []
    · rw [if_pos hnil, hnil, F.node?_directory F.root]
    · rw [if_neg hnil]
      ext n
      rw [lookup_eq_some_iff_mem F.distinct_onDisk, mem_onDisk, node?_eq_some]
  fits way hway := ⟨hfits way hway, hfits way hway⟩

end Folder

end JavaProfile
