import JavaProfile.Tree.Disk
import JavaProfile.Tree.Memory
import JavaProfile.Proofs.Text.Utf8

/-!
What the trees of files have in common. A file that was written reads back, and writing changes no
file but the one at the place to which its path leads.
-/

namespace JavaProfile

class LawfulTree (τ : Type) [FileTree τ] where
  Place : Type
  /-- The place that a path leads to, whether or not a file is there yet. -/
  place? : τ → String → Option Place
  place?_of_read {t : τ} {p data : String} (h : FileTree.read t p = .ok data) :
    ∃ l, place? t p = some l
  contains_of_read {t : τ} {p data : String} (h : FileTree.read t p = .ok data) :
    FileTree.contains t p = .ok true
  read_write {t t' : τ} {now : Float} {p data : String} (hdata : '\r' ∉ data.toList)
    (h : FileTree.write t now p data = (t', .ok ())) : FileTree.read t' p = .ok data
  read_write_apart {t : τ} {p q data : String} (h : FileTree.read t q = .ok data)
    (hapart : place? t p ≠ place? t q) (now : Float) (new : String) :
    FileTree.read (FileTree.write t now p new).1 q = .ok data
  place?_write {t : τ} {q : String} {l : Place} (h : place? t q = some l) (now : Float)
    (p new : String) : place? (FileTree.write t now p new).1 q = some l
  read_makeDirectories {t : τ} {q data : String} (h : FileTree.read t q = .ok data) (p : String) :
    FileTree.read (FileTree.makeDirectories t p).1 q = .ok data
  place?_makeDirectories {t : τ} {q : String} {l : Place} (h : place? t q = some l) (p : String) :
    place? (FileTree.makeDirectories t p).1 q = some l

theorem lookup_filter {α β : Type} [BEq α] [LawfulBEq α] (keep : α → Bool) (a : α)
    (l : List (α × β)) :
    (l.filter fun x => keep x.1).lookup a = if keep a then l.lookup a else none := by
  induction l with
  | nil => simp
  | cons x l ih =>
    obtain ⟨b, y⟩ := x
    by_cases hab : a = b
    · subst hab
      cases hkeep : keep a <;> simp [hkeep, ih]
    · have hne : (a == b) = false := beq_eq_false_iff_ne.mpr hab
      cases hkeep : keep b <;> simp [hkeep, ih, List.lookup_cons, hne]

/-! ### Trees in memory -/

namespace MemoryTree

theorem lookup_putFile_self (files : List (Path × StoredFile)) (k : Path) (f : StoredFile) :
    (putFile files k f).lookup k = some f := by
  induction files with
  | nil => simp [putFile]
  | cons g files ih =>
    obtain ⟨k', f'⟩ := g
    rw [putFile]
    split
    · simp
    · next hne =>
      have hkey : (k == k') = false := by simpa using Ne.symm hne
      rw [List.lookup_cons, hkey]
      exact ih

theorem lookup_putFile_other (files : List (Path × StoredFile)) {k other : Path} (f : StoredFile)
    (hne : other ≠ k) : (putFile files k f).lookup other = files.lookup other := by
  induction files with
  | nil => simp [putFile, List.lookup_cons, beq_eq_false_iff_ne.mpr hne]
  | cons g files ih =>
    obtain ⟨k', f'⟩ := g
    rw [putFile]
    split
    · next heq =>
      rw [List.lookup_cons, List.lookup_cons, heq, beq_eq_false_iff_ne.mpr hne]
    · rw [List.lookup_cons, List.lookup_cons, ih]

theorem lookup_isSome (files : List (Path × StoredFile)) (k : Path) :
    (files.lookup k).isSome = (files.map Prod.fst).contains k := by
  induction files with
  | nil => rfl
  | cons g files ih =>
    obtain ⟨k', f⟩ := g
    rw [List.lookup_cons, List.map_cons, List.contains_cons]
    cases hkey : k == k' with
    | true => rfl
    | false => rw [Bool.false_or, ← ih]

theorem map_putFile (files : List (Path × StoredFile)) (k : Path) (f : StoredFile) :
    (putFile files k f).map Prod.fst =
      if (files.map Prod.fst).contains k then files.map Prod.fst else files.map Prod.fst ++ [k] := by
  induction files with
  | nil => rfl
  | cons g files ih =>
    obtain ⟨k', f'⟩ := g
    rw [putFile, List.map_cons, List.contains_cons]
    by_cases heq : k' = k
    · rw [if_pos heq, heq, beq_self_eq_true, Bool.true_or, if_pos rfl, List.map_cons]
    · rw [if_neg heq, beq_eq_false_iff_ne.mpr (Ne.symm heq), Bool.false_or, List.map_cons, ih]
      split <;> rfl

theorem makeDirectories_files (t : MemoryTree) (p : String) :
    (t.makeDirectories p).1.files = t.files := by
  unfold makeDirectories
  dsimp only
  split <;> rfl

theorem read_eq (t : MemoryTree) (p : String) :
    t.read p = match t.files.lookup (key p) with
      | some f => .ok f.data
      | none => .error (.noFile p) :=
  rfl

theorem write_ok {t t' : MemoryTree} {now : Float} {p data : String}
    (h : t.write now p data = (t', .ok ())) :
    t'.files = putFile t.files (key p) ⟨data, .double now⟩ := by
  unfold write at h
  split at h
  · cases h
  · next directory _ =>
    have hfiles := makeDirectories_files t directory
    split at h
    · cases h
    · next t₁ heq =>
      rw [heq] at hfiles
      cases h
      rw [← hfiles]

theorem write_files (t : MemoryTree) (now : Float) (p data : String) :
    (t.write now p data).1.files = t.files ∨
      (t.write now p data).1.files = putFile t.files (key p) ⟨data, .double now⟩ := by
  rcases hresult : t.write now p data with ⟨t', e | ⟨⟩⟩
  · left
    unfold write at hresult
    split at hresult
    · cases hresult
      rfl
    · next directory _ =>
      have hfiles := makeDirectories_files t directory
      split at hresult
      · next t₁ e' heq =>
        rw [heq] at hfiles
        cases hresult
        exact hfiles
      · cases hresult
  · exact .inr (write_ok hresult)

instance : LawfulTree MemoryTree where
  Place := Path
  place? _ p := some (key p)
  place?_of_read _ := ⟨_, rfl⟩
  contains_of_read {t p data} h := by
    change t.read p = .ok data at h
    change Except.ok (t.hasFile (key p) || t.hasDirectory (key p)) = .ok true
    rw [read] at h
    have hfile : t.hasFile (key p) = true := by
      rw [hasFile]
      split at h
      · next heq => rw [heq]; rfl
      · cases h
    rw [hfile, Bool.true_or]
  read_write {t t' now p data} _ h := by
    change t'.read p = .ok data
    rw [read_eq, write_ok h, lookup_putFile_self]
  read_write_apart {t p q data} h hapart now new := by
    change t.read q = .ok data at h
    change (t.write now p new).1.read q = .ok data
    have hne : key q ≠ key p := fun heq => hapart (congrArg some heq.symm)
    rw [read_eq] at h ⊢
    rcases write_files t now p new with hfiles | hfiles
    · rw [hfiles]
      exact h
    · rw [hfiles, lookup_putFile_other _ _ hne]
      exact h
  place?_write h _ _ _ := h
  read_makeDirectories {t q data} h p := by
    change t.read q = .ok data at h
    change (t.makeDirectories p).1.read q = .ok data
    rw [read_eq] at h ⊢
    rw [makeDirectories_files]
    exact h
  place?_makeDirectories h _ := h

end MemoryTree

end JavaProfile
