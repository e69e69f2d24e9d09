import JavaProfile.Proofs.Tree.Disk
import JavaProfile.Proofs.Tree.Names
import JavaProfile.Tree.Guarded

/-!
Trees that fail for reasons of the system alone, as long as they are asked about paths that they
take and hold nothing but texts that can be read.
-/

namespace JavaProfile

/-- A time that can be counted in whole seconds. -/
def Number.Whole (n : Number) : Prop :=
  ∃ seconds, n.truncate = .ok seconds

class AnsweringTree (τ : Type) [FileTree τ] where
  /-- Paths that the tree can be asked about. -/
  Takes : String → Prop
  /-- All files can be read as texts, and have times. -/
  Sound : τ → Prop
  contains_of_read {t : τ} {p data : String} (h : FileTree.read t p = .ok data) :
    FileTree.contains t p = .ok true
  read_error {t : τ} {p : String} {e : TreeError} (ht : Sound t) (hp : Takes p)
    (h : FileTree.read t p = .error e) : e.isSystem = true
  write_error {t : τ} {p data : String} {now : Float} {e : TreeError} (hp : Takes p)
    (h : (FileTree.write t now p data).2 = .error e) : e.isSystem = true
  makeDirectories_error {t : τ} {p : String} {e : TreeError} (hp : Takes p)
    (h : (FileTree.makeDirectories t p).2 = .error e) : e.isSystem = true
  isDirectory_error {t : τ} {p : String} {e : TreeError}
    (h : FileTree.isDirectory t p = .error e) : e.isSystem = true
  walk_error {t : τ} {p : String} {e : TreeError} (hdirectory : FileTree.isDirectory t p = .ok true)
    (h : FileTree.walk t p = .error e) : e.isSystem = true
  modified_of_walk {t : τ} {p : String} {entries : List FileEntry} (ht : Sound t)
    (h : FileTree.walk t p = .ok entries) : ∀ e ∈ entries, e.modified.Whole
  sound_write {t : τ} {now : Float} (ht : Sound t) (hnow : (Number.double now).Whole)
    (p data : String) : Sound (FileTree.write t now p data).1
  sound_makeDirectories {t : τ} (ht : Sound t) (p : String) :
    Sound (FileTree.makeDirectories t p).1

/-! ### Trees in memory -/

namespace MemoryTree

theorem mem_putFile {files : List (Path × StoredFile)} {k : Path} {f : StoredFile}
    {g : Path × StoredFile} (h : g ∈ putFile files k f) : g = (k, f) ∨ g ∈ files := by
  induction files with
  | nil => exact .inl (List.mem_singleton.mp h)
  | cons g' files ih =>
    rw [putFile] at h
    split at h
    · rcases List.mem_cons.mp h with h | h
      · exact .inl h
      · exact .inr (List.mem_cons_of_mem _ h)
    · rcases List.mem_cons.mp h with h | h
      · exact .inr (h ▸ List.mem_cons_self)
      · exact (ih h).imp_right (List.mem_cons_of_mem _)

theorem makeDirectories_error {t : MemoryTree} {p : String} {e : TreeError}
    (h : (t.makeDirectories p).2 = .error e) : e.isSystem = true := by
  unfold makeDirectories at h
  dsimp only at h
  split at h
  · cases h
    rfl
  · cases h

/-- The times of all files can be counted. -/
def Timed (t : MemoryTree) : Prop :=
  ∀ f ∈ t.files, f.2.modified.Whole

instance : AnsweringTree MemoryTree where
  Takes _ := True
  Sound := Timed
  contains_of_read := LawfulTree.contains_of_read
  read_error {t p e} _ _ h := by
    change t.read p = .error e at h
    rw [read] at h
    split at h
    · cases h
    · cases h
      rfl
  write_error {t p data now e} _ h := by
    change (t.write now p data).2 = .error e at h
    unfold write at h
    split at h
    · cases h
      rfl
    · next directory _ =>
      split at h
      · next t' e' hdirectory =>
        cases h
        exact makeDirectories_error (congrArg (·.2) hdirectory)
      · cases h
  makeDirectories_error _ h := makeDirectories_error h
  isDirectory_error h := by cases h
  walk_error {t p e} hdirectory h := by
    have hthere : t.hasDirectory (key p) = true := Except.ok.inj hdirectory
    change t.walk p = .error e at h
    rw [walk, if_pos hthere] at h
    cases h
  modified_of_walk {t p entries} ht h := by
    change t.walk p = .ok entries at h
    rw [walk] at h
    split at h
    · cases h
      intro e he
      obtain ⟨f, hf, rfl⟩ := List.mem_map.mp he
      exact ht f (List.mem_filter.mp (List.mem_mergeSort.mp hf)).1
    · cases h
  sound_write {t now} ht hnow p data := by
    change Timed (t.write now p data).1
    intro f hf
    rcases write_files t now p data with hfiles | hfiles
    · exact ht f (hfiles ▸ hf)
    · rw [hfiles] at hf
      rcases mem_putFile hf with rfl | hf
      · exact hnow
      · exact ht f hf
  sound_makeDirectories {t} ht p := by
    change Timed (t.makeDirectories p).1
    intro f hf
    rw [makeDirectories_files] at hf
    exact ht f hf

end MemoryTree

/-! ### Disks -/

namespace DiskTree

variable {t : DiskTree} {p : Path} {e : TreeError}

/-- A path that the system takes at all. -/
def Follows (p : Path) : Prop :=
  '\x00' ∉ p.text.toList

theorem Follows.around {root : Root} {parts : List String} {part : String}
    (h : Follows ⟨root, parts ++ [part]⟩) : Follows ⟨root, parts⟩ := by
  by_cases hparts : parts = []
  · subst hparts
    unfold Follows
    cases root <;> decide +kernel
  · have htext : (Path.mk root parts).text = root.text ++ String.intercalate "/" parts := by
      rw [Path.text, if_neg fun h => hparts h.2]
    unfold Follows at h ⊢
    rw [Path.text_append root hparts, ← htext] at h
    intro hnul
    apply h
    rw [String.toList_append, String.toList_append]
    exact List.mem_append_left _ (List.mem_append_left _ hnul)

theorem locate_error {aim : Aim} (hp : Follows p) (h : t.locate aim p = .error e) :
    e.isSystem = true := by
  have hnul : p.text.contains '\x00' = false := by
    rw [String.contains_char_eq]
    exact decide_eq_false hp
  rw [locate, hnul, if_neg Bool.false_ne_true] at h
  split at h
  · cases h
    rfl
  · obtain ⟨cause, -, rfl⟩ := mapError_eq_error.mp h
    rfl

theorem find?_error (h : t.find? p = .error e) : e.isSystem = true := by
  unfold find? at h
  split at h
  · cases h
  · cases h
    rfl
  · cases h

theorem settle_error {e' : TreeError} (he : e.isSystem = true)
    (h : (t.settle p e).2 = .error e') : e'.isSystem = true := by
  unfold settle at h
  split at h
  · cases h
  · cases h
    rfl
  · cases h
    exact he

theorem makeDirectoryAt_error {place : Except TreeError Place}
    (hplace : ∀ e, place = .error e → e.isSystem = true)
    (h : (t.makeDirectoryAt p place).2 = .error e) : e.isSystem = true := by
  rcases place with e' | ⟨l, n⟩ | l
  · exact settle_error (hplace e' rfl) h
  · exact settle_error rfl h
  · cases h

theorem makeDirectoriesFrom_error {root : Root} {reversed : List String}
    (hp : Follows ⟨root, reversed.reverse⟩)
    (h : (t.makeDirectoriesFrom root reversed).2 = .error e) : e.isSystem = true := by
  induction reversed generalizing e with
  | nil => exact settle_error rfl h
  | cons part before ih =>
    have haround : Follows ⟨root, before.reverse⟩ := by
      rw [List.reverse_cons] at hp
      exact hp.around
    rw [makeDirectoriesFrom] at h
    split at h
    · rcases hbefore : t.makeDirectoriesFrom root before with ⟨t', e' | around⟩
      · rw [hbefore] at h ih
        cases h
        exact ih haround rfl
      · rw [hbefore] at h
        refine makeDirectoryAt_error (fun e' he' => ?_) h
        obtain ⟨cause, -, rfl⟩ := mapError_eq_error.mp he'
        rfl
    · exact makeDirectoryAt_error (fun e' he' => locate_error hp he') h

theorem makeDirectories_error (hp : Follows p) (h : (t.makeDirectories p).2 = .error e) :
    e.isSystem = true := by
  have hparts : Follows ⟨p.root, p.parts.reverse.reverse⟩ := by
    rw [List.reverse_reverse]
    exact hp
  rw [makeDirectories] at h
  rcases hrun : t.makeDirectoriesFrom p.root p.parts.reverse with ⟨t', e' | l⟩
  · rw [hrun] at h
    cases h
    exact makeDirectoriesFrom_error hparts (congrArg (·.2) hrun)
  · rw [hrun] at h
    cases h

/-! #### Times -/

theorem settle_times (t : DiskTree) (p : Path) (e : TreeError) :
    (t.settle p e).1.times = t.times := by
  unfold settle
  split <;> rfl

theorem makeDirectoryAt_times (t : DiskTree) (p : Path) (place : Except TreeError Place) :
    (t.makeDirectoryAt p place).1.times = t.times := by
  rcases place with e | ⟨l, n⟩ | l
  · exact settle_times t p e
  · exact settle_times t p _
  · rfl

theorem makeDirectoriesFrom_times (t : DiskTree) (root : Root) (reversed : List String) :
    (t.makeDirectoriesFrom root reversed).1.times = t.times := by
  induction reversed with
  | nil => exact settle_times t _ _
  | cons part before ih =>
    rw [makeDirectoriesFrom]
    split
    · rcases hbefore : t.makeDirectoriesFrom root before with ⟨t', e | around⟩
      · rw [hbefore] at ih
        exact ih
      · rw [hbefore] at ih
        exact (makeDirectoryAt_times t' _ _).trans ih
    · exact makeDirectoryAt_times t _ _

theorem makeDirectories_times (t : DiskTree) (p : Path) :
    (t.makeDirectories p).1.times = t.times := by
  rw [← makeDirectoriesFrom_times t p.root p.parts.reverse, makeDirectories]
  rcases t.makeDirectoriesFrom p.root p.parts.reverse with ⟨t', e | l⟩ <;> rfl

theorem writeBytes_times (t : DiskTree) (p : Path) (bytes : List UInt8) :
    (t.writeBytes p bytes).1.times = t.times := by
  unfold writeBytes
  split <;> rfl

/-- The times of all files can be counted. -/
def Timed (t : DiskTree) : Prop :=
  ∀ f ∈ t.times, f.2.Whole

theorem Timed.modified (ht : t.Timed) (l : Location) : (t.modified l).Whole := by
  rw [DiskTree.modified]
  split
  · next l' n _ =>
    cases htime : t.times.lookup l' with
    | none => exact ⟨0, rfl⟩
    | some time =>
      obtain ⟨before, after, htimes, -⟩ := List.lookup_eq_some_iff.mp htime
      exact ht (l', time) (by rw [htimes]; simp)
  · exact ⟨0, rfl⟩

theorem locate_of_isDirectory (h : t.isDirectory p = .ok true) :
    ∃ l, t.locate .target p = .ok (.taken l .directory) := by
  rw [isDirectory, find?] at h
  split at h
  · next l n hlocate =>
    obtain rfl : n = .directory := by simpa [Except.map] using h
    exact ⟨l, hlocate⟩
  · cases h
  · cases h

theorem walk_of_isDirectory (h : t.isDirectory p = .ok true) :
    ∃ entries, t.walk p = .ok entries := by
  obtain ⟨l, hlocate⟩ := locate_of_isDirectory h
  exact ⟨_, by rw [walk, hlocate]⟩

instance : AnsweringTree DiskTree where
  Takes p := Follows p
  Sound := Timed
  contains_of_read := LawfulTree.contains_of_read
  read_error {t p e} _ hp h := by
    change t.read p = .error e at h
    unfold read at h
    split at h
    · cases h
    · cases h
      rfl
    · cases h
      rfl
    · next e' hlocate =>
      cases h
      exact locate_error hp hlocate
  write_error {t p data now e} hp h := by
    change (t.writeBytes p (Text.encode data)).2 = .error e at h
    unfold writeBytes at h
    split at h
    · cases h
    · cases h
      rfl
    · cases h
    · next e' hlocate =>
      cases h
      exact locate_error hp hlocate
  makeDirectories_error hp h := makeDirectories_error hp h
  isDirectory_error {t p e} h := by
    change (t.find? p).map _ = .error e at h
    cases hfind : t.find? p with
    | ok n =>
      rw [hfind] at h
      cases h
    | error e' =>
      rw [hfind] at h
      cases h
      exact find?_error hfind
  walk_error {t p e} hdirectory h := by
    obtain ⟨entries, hentries⟩ := walk_of_isDirectory hdirectory
    rw [show t.walk p = .error e from h] at hentries
    cases hentries
  modified_of_walk {t p entries} ht h := by
    change t.walk p = .ok entries at h
    unfold walk at h
    split at h
    · cases h
      intro e he
      obtain ⟨f, -, rfl⟩ := List.mem_map.mp he
      exact ht.modified _
    all_goals cases h
  sound_write {t now} ht _ p data := by
    change Timed (t.writeBytes p (Text.encode data)).1
    rw [Timed, writeBytes_times]
    exact ht
  sound_makeDirectories {t} ht p := by
    change Timed (t.makeDirectories p).1
    rw [Timed, makeDirectories_times]
    exact ht

end DiskTree

/-! ### Trees that refuse some calls -/

namespace Guarded

variable {τ : Type}

theorem change_error {g : Guarded τ} {a : Access} {p : String} {e : TreeError}
    {call : τ → τ × Except TreeError Unit}
    (hcall : ∀ e, (call g.tree).2 = .error e → e.isSystem = true)
    (h : (g.change a p call).2 = .error e) : e.isSystem = true := by
  unfold change at h
  split at h
  · cases h
    rfl
  · exact hcall e h

theorem change_tree (g : Guarded τ) (a : Access) (p : String)
    (call : τ → τ × Except TreeError Unit) :
    g.change a p call = (g, .error (.denied p)) ∨ g.change a p call = g.setTree (call g.tree) := by
  unfold change
  split
  · exact .inl rfl
  · exact .inr rfl

variable [FileTree τ]

theorem write_tree (g : Guarded τ) (now : Float) (p data : String) :
    (g.write now p data).1 = g ∨
      (g.write now p data).1 = (g.setTree (FileTree.write g.tree now p data)).1 := by
  unfold write
  split
  · exact .inl rfl
  · split
    · next directory _ =>
      rcases g.change_tree .makeDirectories directory fun t => FileTree.write t now p data with
        hchange | hchange
      · exact .inl (congrArg Prod.fst hchange)
      · exact .inr (congrArg Prod.fst hchange)
    · exact .inr rfl

/-- A tree answers where it refuses calls too, but for bytes that are no text. -/
instance [AnsweringTree τ] : AnsweringTree (Guarded τ) where
  Takes := AnsweringTree.Takes τ
  Sound g := AnsweringTree.Sound g.tree ∧ ∀ p, g.refuses .decode p = false
  contains_of_read {g p data} h := by
    change g.read p = .ok data at h
    unfold read at h
    split at h
    · cases h
    · split at h
      · cases h
      · change FileTree.contains g.tree p = .ok true
        exact AnsweringTree.contains_of_read h
  read_error {g p e} hg hp h := by
    change g.read p = .error e at h
    unfold read at h
    split at h
    · cases h
      rfl
    · rw [hg.2 p, if_neg Bool.false_ne_true] at h
      exact AnsweringTree.read_error hg.1 hp h
  write_error {g p data now e} hp h := by
    change (g.write now p data).2 = .error e at h
    unfold write at h
    split at h
    · cases h
      rfl
    · split at h
      · refine change_error (fun e he => ?_) h
        exact AnsweringTree.write_error hp he
      · exact AnsweringTree.write_error hp h
  makeDirectories_error {g p e} hp h := by
    refine change_error (fun e' he => ?_) h
    exact AnsweringTree.makeDirectories_error hp he
  isDirectory_error {g p e} h := by
    change FileTree.isDirectory g.tree p = .error e at h
    exact AnsweringTree.isDirectory_error h
  walk_error {g p e} hdirectory h := by
    change FileTree.isDirectory g.tree p = .ok true at hdirectory
    change (if g.refuses .walk p then .error (.denied p) else FileTree.walk g.tree p) = _ at h
    split at h
    · cases h
      rfl
    · exact AnsweringTree.walk_error hdirectory h
  modified_of_walk {g p entries} hg h := by
    change (if g.refuses .walk p then .error (.denied p) else FileTree.walk g.tree p) = _ at h
    split at h
    · cases h
    · exact AnsweringTree.modified_of_walk hg.1 h
  sound_write {g now} hg hnow p data := by
    change AnsweringTree.Sound (g.write now p data).1.tree ∧ _
    rcases g.write_tree now p data with htree | htree
    · rw [show FileTree.write g now p data = g.write now p data from rfl, htree]
      exact hg
    · rw [show FileTree.write g now p data = g.write now p data from rfl, htree]
      exact ⟨AnsweringTree.sound_write hg.1 hnow p data, hg.2⟩
  sound_makeDirectories {g} hg p := by
    rcases g.change_tree .makeDirectories p fun t => FileTree.makeDirectories t p with htree | htree
    · rw [show FileTree.makeDirectories g p = _ from htree]
      exact hg
    · rw [show FileTree.makeDirectories g p = _ from htree]
      exact ⟨AnsweringTree.sound_makeDirectories hg.1 p, hg.2⟩

end Guarded

end JavaProfile
