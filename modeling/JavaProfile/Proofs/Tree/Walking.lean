import JavaProfile.Proofs.Tree.Calls
import JavaProfile.Proofs.Tree.FolderOnDisk

/-!
Walks of trees. All that is found on a walk lies beneath the directory to which the root of the walk
leads, in memory and on a disk, where no link is followed on the way.
-/

namespace JavaProfile

class WalkingTree (τ : Type) [FileTree τ] where
  /-- Whether what a tree holds fits together. -/
  Sound : τ → Prop
  /-- Where a path leads through all links. -/
  home? : τ → String → Option Path
  /-- Where the node is that a path names, be it a link. -/
  spot? : τ → String → Option Path
  spots_of_walk {t : τ} {root : String} {entries : List FileEntry} (ht : Sound t)
    (h : FileTree.walk t root = .ok entries) : ∃ d, home? t root = some d ∧
      ∀ e ∈ entries, ∃ k, spot? t e.path.text = some k ∧ k.isBeneath d = true

/-- What a path names lies beneath the directory to which another leads. -/
def WalkingTree.LiesUnder {τ : Type} [FileTree τ] [WalkingTree τ] (t : τ) (path root : String) :
    Prop :=
  ∃ k d, spot? t path = some k ∧ home? t root = some d ∧ k.isBeneath d = true

/-! ### Trees in memory -/

instance : WalkingTree MemoryTree where
  Sound := MemoryTree.Closed
  home? _ path := some (MemoryTree.key path)
  spot? _ path := some (MemoryTree.key path)
  spots_of_walk {t root entries} ht h := by
    refine ⟨_, rfl, fun e he => ⟨_, rfl, ?_⟩⟩
    change t.walk root = .ok entries at h
    rw [MemoryTree.walk] at h
    split at h
    · cases h
      obtain ⟨f, hf, rfl⟩ := List.mem_map.mp he
      obtain ⟨hmem, hbeneath⟩ := List.mem_filter.mp (List.mem_mergeSort.mp hf)
      have hstored : t.Stores f.1 := .inl (MemoryTree.hasFile_iff.mpr (List.mem_map_of_mem hmem))
      change (MemoryTree.key f.1.text).isBeneath _ = true
      rwa [(ht.keyed hstored).key_text]
    · cases h

/-! ### Trees on a disk -/

namespace DiskTree

variable {t : DiskTree} {l : Location} {n : Node} {aim : Aim} {links : ℕ} {here : Location}

/-- Nodes have names and lie in directories, and relative paths start in one. -/
structure Sound (t : DiskTree) : Prop where
  named {l : Location} {n : Node} (h : (l, n) ∈ t.nodes) : ∀ name ∈ l, IsName name
  around {before after : Location} {n : Node} (h : (before ++ after, n) ∈ t.nodes)
    (hafter : after ≠ []) : t.node? before = some .directory
  here : t.node? t.here = some .directory

theorem mem_of_node? (hl : l ≠ []) (h : t.node? l = some n) : (l, n) ∈ t.nodes := by
  rw [node?, if_neg hl, List.lookup_eq_some_iff] at h
  obtain ⟨before, after, hnodes, -⟩ := h
  rw [hnodes]
  simp

theorem Sound.node?_dropLast (ht : t.Sound) (h : t.node? l = some n) :
    t.node? l.dropLast = some .directory := by
  by_cases hl : l = []
  · rw [hl]
    rfl
  · have hnode := mem_of_node? hl h
    rw [← List.dropLast_append_getLast hl] at hnode
    exact ht.around hnode (by simp)

/-! ### Where ways lead -/

def Place.location : Place → Location
  | .taken l _ => l
  | .free l => l

/-- The location of the node that a path names, or of the name that is free there. -/
def nameLocation? (t : DiskTree) (p : Path) : Option Location :=
  match resolve t .name maxLinks (startOf t.here p.root) p.parts with
  | .ok place => some place.location
  | .error _ => none

/-- What a sound tree holds where a way ends. -/
def Place.Lies (t : DiskTree) : Place → Prop
  | .taken l n => t.node? l = some n
  | .free l => ∃ around name, l = around ++ [name] ∧ IsName name ∧
      t.node? around = some .directory

theorem notMem_targetParts (target : String) : ∀ part ∈ targetParts target, '/' ∉ part.toList := by
  intro part hpart
  have hpiece : part ∈ Text.pieces '/' target := by
    rcases List.mem_append.mp hpart with hkept | hlast
    · exact (List.mem_filter.mp hkept).1
    · have hmem := (List.mem_filter.mp hlast).1
      exact List.mem_of_getLast? (Option.mem_toList.mp hmem)
  obtain ⟨cs, hcs, rfl⟩ := List.mem_map.mp hpiece
  rw [String.toList_ofList]
  exact Text.notMem_splitOn _ _ _ hcs

theorem node?_startOf (h : t.node? here = some .directory) (root : Root) :
    t.node? (startOf here root) = some .directory := by
  rw [startOf]
  split
  · exact h
  · rfl

theorem resolve_lies (ht : t.Sound) {parts : List String} {place : Place}
    (hhere : t.node? here = some .directory) (hparts : ∀ part ∈ parts, '/' ∉ part.toList)
    (h : resolve t aim links here parts = .ok place) : place.Lies t := by
  have htail {part : String} {rest : List String}
      (hparts : ∀ q ∈ part :: rest, '/' ∉ q.toList) : ∀ q ∈ rest, '/' ∉ q.toList :=
    fun q hq => hparts q (List.mem_cons_of_mem _ hq)
  rw [resolve_iff] at h
  induction h with
  | done => exact hhere
  | up _ ih => exact ih (ht.node?_dropLast hhere) (htail hparts)
  | stay _ _ ih => exact ih hhere (htail hparts)
  | @free _ here part henters =>
    obtain ⟨hdot, hempty⟩ := not_or.mp henters.stay
    exact ⟨here, part, rfl, ⟨hparts part List.mem_cons_self, hempty, hdot, henters.up⟩, hhere⟩
  | directory _ hnode _ ih => exact ih hnode (htail hparts)
  | file _ hnode | link _ _ hnode => exact hnode
  | @follow _ _ _ target _ _ _ _ _ _ ih =>
    -- The way goes on from the target of the link, whose parts hold no separator either.
    refine ih (node?_startOf hhere _) fun q hq => ?_
    rcases List.mem_append.mp hq with htarget | hrest
    · exact notMem_targetParts target q htarget
    · exact htail hparts q hrest

theorem locate_lies (ht : t.Sound) {p : Path} {place : Place} (hp : p.Spelled)
    (h : t.locate aim p = .ok place) : place.Lies t :=
  resolve_lies ht (node?_startOf ht.here _) (fun part hpart => (hp part hpart).noSeparator)
    (locate_ok h).2.2

theorem resolve_way (ht : t.Sound) (links : ℕ) {way : List String} (hway : way ≠ [])
    (hnode : (l ++ way, n) ∈ t.nodes) (hshort : ∀ name ∈ way, name.utf8ByteSize ≤ maxNameBytes) :
    ∃ place, resolve t .name links l way = .ok place ∧ place.location = l ++ way := by
  simp only [resolve_iff]
  induction way generalizing l with
  | nil => exact absurd rfl hway
  | cons name rest ih =>
    have hname := ht.named hnode name (by simp)
    have henters : Enters .name name rest :=
      enters_of_isName hname (by simp) (hshort name List.mem_cons_self)
    by_cases hlast : rest = []
    · subst hlast
      cases hlocated : t.node? (l ++ [name]) with
      | none => exact ⟨_, .free henters hlocated, rfl⟩
      | some node =>
        cases node with
        | directory => exact ⟨_, .directory henters hlocated .done, rfl⟩
        | file bytes => exact ⟨_, .file henters hlocated, rfl⟩
        | link target => exact ⟨_, .link rfl henters hlocated, rfl⟩
    · rw [List.append_cons l name rest] at hnode ⊢
      obtain ⟨place, hplace, hlocation⟩ :=
        ih hlast hnode fun q hq => hshort q (List.mem_cons_of_mem _ hq)
      exact ⟨place, .directory henters (ht.around hnode hlast) hplace, hlocation⟩

theorem resolve_directory (ht : t.Sound) {way : List String}
    (hd : t.node? (l ++ way) = some .directory)
    (hshort : ∀ name ∈ way, name.utf8ByteSize ≤ maxNameBytes) :
    resolve t .target links l way = .ok (.taken (l ++ way) .directory) := by
  rw [resolve_iff]
  induction way generalizing l with
  | nil =>
    rw [List.append_nil]
    exact .done
  | cons name rest ih =>
    have hnode := mem_of_node? (by simp) hd
    have hname := ht.named hnode name (by simp)
    rw [List.append_cons] at hd hnode ⊢
    have hfirst : t.node? (l ++ [name]) = some .directory := by
      by_cases hlast : rest = []
      · rwa [hlast, List.append_nil] at hd
      · exact ht.around hnode hlast
    exact .directory (enters_of_isName hname (by simp) (hshort name List.mem_cons_self)) hfirst
      (ih hd fun q hq => hshort q (List.mem_cons_of_mem _ hq))

theorem short_of_resolve (ht : t.Sound) {way : List String} {place : Place}
    (hnode : (l ++ way, n) ∈ t.nodes) (h : resolve t aim links l way = .ok place) :
    ∀ name ∈ way, name.utf8ByteSize ≤ maxNameBytes := by
  rw [resolve_iff] at h
  induction way generalizing l with
  | nil => simp
  | cons name rest ih =>
    have hname := ht.named hnode name (by simp)
    rw [List.append_cons] at hnode
    rw [List.forall_mem_cons]
    cases h with
    | up => exact absurd rfl hname.ne_up
    | stay hstay => exact absurd hstay (not_or.mpr ⟨hname.ne_here, hname.ne_empty⟩)
    | directory henters _ h => exact ⟨Nat.not_lt.mp henters.short, ih hnode h⟩
    | free henters | file henters | link _ henters =>
      exact ⟨Nat.not_lt.mp henters.short, by simp⟩
    | follow henters hlink =>
      refine ⟨Nat.not_lt.mp henters.short, fun q hq => ?_⟩
      -- What lies beneath a link is no node of its own.
      rw [ht.around hnode (List.ne_nil_of_mem hq)] at hlink
      cases hlink

theorem spelled_down (ht : t.Sound) {p : Path} (hp : p.Spelled) {way : List String}
    (hnode : (l ++ way, n) ∈ t.nodes) : (p.down way).Spelled := by
  intro part hpart
  rcases List.mem_append.mp hpart with hbefore | hway
  · exact hp part hbefore
  · exact (ht.named hnode part (List.mem_append_right _ hway)).isPart

theorem fileSize?_eq_some {size : ℕ} :
    t.fileSize? l = some size ↔ ∃ place bytes,
      t.locate .target ⟨.single, l⟩ = .ok (.taken place (.file bytes)) ∧ bytes.length = size := by
  rw [fileSize?, find?]
  constructor
  · intro h
    split at h
    · next bytes hfind =>
      split at hfind
      · next place n hlocate =>
        cases hfind
        exact ⟨place, bytes, hlocate, Option.some.inj h⟩
      · cases hfind
      · cases hfind
    · cases h
  · rintro ⟨place, bytes, hlocate, rfl⟩
    rw [hlocate]

theorem nameLocation?_found (ht : t.Sound) {p : Path} {found : List String × ℕ} (hp : p.Spelled)
    (hlocate : t.locate .target p = .ok (.taken l .directory)) (hfound : found ∈ t.filesBeneath l) :
    found.1 ≠ [] ∧ (p.down found.1).Spelled ∧
      t.nameLocation? (p.down found.1) = some (l ++ found.1) := by
  rw [filesBeneath_found, List.mem_mergeSort, List.mem_filterMap] at hfound
  obtain ⟨⟨l', n⟩, hnode, hx⟩ := hfound
  obtain ⟨rfl, hn, hsize⟩ := found?_eq_some.mp hx
  obtain ⟨place, bytes, hfile, -⟩ := fileSize?_eq_some.mp hsize
  have hresolve := (locate_ok hfile).2.2
  have hshort : ∀ name ∈ l ++ found.1, name.utf8ByteSize ≤ maxNameBytes :=
    short_of_resolve ht (l := []) hnode hresolve
  have hne : found.1 ≠ [] := by
    intro hnil
    have hdirectory := locate_lies ht hp hlocate
    rw [hnil, List.append_nil] at hresolve hshort
    have hself : resolve t .target maxLinks [] l = .ok (.taken l .directory) :=
      resolve_directory ht (l := []) hdirectory hshort
    cases hself.symm.trans hresolve
  obtain ⟨left, happend⟩ :=
    resolve_append (show Aim.name ≠ .file by decide) (fun _ => hne) (locate_ok hlocate).2.2
  obtain ⟨place, hway, hlocation⟩ := resolve_way ht left hne hnode fun name hname =>
    hshort name (List.mem_append_right _ hname)
  refine ⟨hne, spelled_down ht hp hnode, ?_⟩
  rw [nameLocation?, Path.down_root, Path.down_parts, happend, hway]
  exact congrArg some hlocation

end DiskTree

instance : WalkingTree DiskTree where
  Sound := DiskTree.Sound
  home? t path := (t.location? path).map (⟨.single, ·⟩)
  spot? t path := (t.nameLocation? path).map (⟨.single, ·⟩)
  spots_of_walk {t root entries} ht h := by
    change t.walk root = .ok entries at h
    rw [DiskTree.walk] at h
    split at h
    · next l hlocate =>
      cases h
      refine ⟨⟨.single, l⟩, by rw [DiskTree.location?, hlocate]; rfl, fun e he => ?_⟩
      obtain ⟨found, hfound, rfl⟩ := List.mem_map.mp he
      obtain ⟨hne, hspelled, hname⟩ :=
        DiskTree.nameLocation?_found ht (Path.spelled_ofString root) hlocate hfound
      refine ⟨⟨.single, l ++ found.1⟩, ?_, Path.isBeneath_iff.mpr ⟨found.1, hne, rfl⟩⟩
      change (t.nameLocation? (Path.ofString ((Path.ofString root).down found.1).text)).map _ = _
      rw [hspelled.ofString_text, hname]
      rfl
    · cases h
    · cases h
    · cases h

end JavaProfile
