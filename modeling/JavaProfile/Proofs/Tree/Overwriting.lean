import JavaProfile.Proofs.Tree.Answering
import JavaProfile.Proofs.Tree.Recorded

/-!
What a file holds after some file was written, whether or not two paths lead to one file: what it
held before, or what was written.
-/

namespace JavaProfile

/-- How a text can be read that was written: as it is, or with its breaks as line feeds. -/
def Text.ReadsAs (written read : String) : Prop :=
  read = written ∨ read = String.ofList (unifyBreaks written.toList)

namespace Text.ReadsAs

variable {written read : String}

theorem eq (h : ReadsAs written read) (hwritten : '\r' ∉ written.toList) : read = written := by
  rcases h with rfl | rfl
  · rfl
  · rw [unifyBreaks_of_notMem hwritten, String.ofList_toList]

theorem starts {c : Char} {cs : List Char} (h : ReadsAs written read) (hc : c ≠ '\r')
    (hstart : written.toList = c :: cs) : ∃ rest, read.toList = c :: rest := by
  rcases h with rfl | rfl
  · exact ⟨cs, hstart⟩
  · have hopens : opensBreak c cs = false := by
      rw [opensBreak, beq_eq_false_iff_ne.mpr hc, Bool.false_and]
    refine ⟨unifyBreaks cs, ?_⟩
    rw [hstart, unifyBreaks, hopens, if_neg Bool.false_ne_true, if_neg hc, String.toList_ofList]

end Text.ReadsAs

class OverwritingTree (τ : Type) [FileTree τ] : Prop where
  /-- No file is lost by writing one. -/
  readable_write {t : τ} {q data : String} (h : FileTree.read t q = .ok data) (now : Float)
    (p new : String) : ∃ data', FileTree.read (FileTree.write t now p new).1 q = .ok data'
  /-- A file that can be read is as it was, or is the one that was written. -/
  read_of_write {t : τ} {now : Float} {p q data new : String}
    (h : FileTree.read (FileTree.write t now p new).1 q = .ok data) :
    FileTree.read t q = .ok data ∨ Text.ReadsAs new data
  read_of_written {t : τ} {now : Float} {p data new : String}
    (hwritten : (FileTree.write t now p new).2 = .ok ())
    (h : FileTree.read (FileTree.write t now p new).1 p = .ok data) : Text.ReadsAs new data
  /-- Where writing fails, no file is another one afterwards. -/
  read_of_failed {t : τ} {now : Float} {p q data new : String} {e : TreeError}
    (hfailed : (FileTree.write t now p new).2 = .error e)
    (h : FileTree.read (FileTree.write t now p new).1 q = .ok data) :
    FileTree.read t q = .ok data

/-- A file that could be read still can, and is as it was unless it is the one that was written. -/
theorem OverwritingTree.read_write_or {τ : Type} [FileTree τ] [OverwritingTree τ] {t : τ}
    {q data new : String} (h : FileTree.read t q = .ok data) (hnew : '\r' ∉ new.toList)
    (now : Float) (p : String) :
    FileTree.read (FileTree.write t now p new).1 q = .ok data ∨
      FileTree.read (FileTree.write t now p new).1 q = .ok new := by
  obtain ⟨data', hdata'⟩ := readable_write h now p new
  rcases read_of_write hdata' with hbefore | hwritten
  · rw [h] at hbefore
    cases hbefore
    exact .inl hdata'
  · rw [hwritten.eq hnew] at hdata'
    exact .inr hdata'

/-! ### Trees in memory -/

namespace MemoryTree

theorem read_putFile {t t' : MemoryTree} {p q data : String} {modified : Number}
    (hfiles : t'.files = putFile t.files (key p) ⟨data, modified⟩) :
    t'.read q = if key q = key p then .ok data else t.read q := by
  rw [read_eq, read_eq, hfiles]
  by_cases heq : key q = key p
  · rw [if_pos heq, heq, lookup_putFile_self]
  · rw [if_neg heq, lookup_putFile_other _ _ heq]

theorem write_failed {t t' : MemoryTree} {now : Float} {p data : String} {e : TreeError}
    (h : t.write now p data = (t', .error e)) : t'.files = t.files := by
  unfold write at h
  split at h
  · cases h
    rfl
  · next directory _ =>
    have hfiles := makeDirectories_files t directory
    split at h
    · next heq =>
      rw [heq] at hfiles
      cases h
      exact hfiles
    · cases h

theorem read_congr {t t' : MemoryTree} (hfiles : t'.files = t.files) (q : String) :
    t'.read q = t.read q := by
  rw [read_eq, read_eq, hfiles]

instance : OverwritingTree MemoryTree where
  readable_write {t q data} h now p new := by
    change ∃ data', (t.write now p new).1.read q = .ok data'
    rcases write_files t now p new with hfiles | hfiles
    · exact ⟨data, (read_congr hfiles q).trans h⟩
    · rw [read_putFile hfiles]
      split
      · exact ⟨new, rfl⟩
      · exact ⟨data, h⟩
  read_of_write {t now p q data new} h := by
    change (t.write now p new).1.read q = .ok data at h
    change t.read q = .ok data ∨ _
    rcases write_files t now p new with hfiles | hfiles
    · exact .inl ((read_congr hfiles q).symm.trans h)
    · rw [read_putFile hfiles] at h
      split at h
      · cases h
        exact .inr (.inl rfl)
      · exact .inl h
  read_of_written {t now p data new} hwritten h := by
    change (t.write now p new).1.read p = .ok data at h
    rw [read_putFile (write_ok (Prod.ext rfl hwritten)), if_pos rfl] at h
    cases h
    exact .inl rfl
  read_of_failed {t now p q data new e} hfailed h := by
    change (t.write now p new).1.read q = .ok data at h
    exact (read_congr (write_failed (Prod.ext rfl hfailed)) q).symm.trans h

end MemoryTree

/-! ### Disks -/

namespace DiskTree

variable {t : DiskTree} {l other : Location} {new : List UInt8} {links : ℕ} {here : Location}
  {parts : List String} {n : Node}

/-- A way that ends elsewhere once a file has been put was there before. -/
theorem resolve_of_put (h : resolve (t.put l (.file new)) .target links here parts =
      .ok (.taken other n)) (hl : l ≠ []) (hne : other ≠ l) :
    resolve t .target links here parts = .ok (.taken other n) := by
  refine resolve_of_nodes (fun found m hm hend => ?_) h
  have hfound : found ≠ l := by
    rintro rfl
    rw [node?_put_self hl] at hm
    exact hne (hend new (Option.some.inj hm).symm).symm
  rwa [node?_put_other hfound] at hm

theorem read_of_put {p : Path} {data : String} (hopen : t.Open l)
    (h : (t.put l (.file new)).read p = .ok data) :
    t.read p = .ok data ∨ data = String.ofList (Text.unifyBreaks (Text.decode new)) := by
  obtain ⟨l', bytes, hlocate, rfl⟩ := read_ok h
  by_cases heq : l' = l
  · have hnode : (t.put l (.file new)).node? l' = some (.file bytes) := locate_fits hlocate
    rw [heq, node?_put_self hopen.ne_nil] at hnode
    cases hnode
    exact .inr rfl
  · obtain ⟨hnul, hlong, hresolve⟩ := locate_ok hlocate
    have hbefore := locate_of_resolve hnul hlong (resolve_of_put hresolve hopen.ne_nil heq)
    exact .inl (by rw [read, hbefore])

theorem readsAs_decode (data : String) :
    Text.ReadsAs data (String.ofList (Text.unifyBreaks (Text.decode (Text.encode data)))) :=
  .inr (by rw [Text.decode_encode])

instance : OverwritingTree DiskTree where
  readable_write {t q data} h now p new := by
    change ∃ data', (t.writeBytes p (Text.encode new)).1.read q = .ok data'
    rcases hwrite : t.writeBytes p (Text.encode new) with ⟨t', e | ⟨⟩⟩
    · exact ⟨data, by rw [writeBytes_error hwrite]; exact h⟩
    · obtain ⟨l, hopen, -, rfl, -⟩ := writeBytes_ok hwrite
      obtain ⟨l', bytes, hlocate, rfl⟩ := read_ok h
      have hafter := locate_put hopen (fun target h => by cases h) hlocate
        (n := .file (Text.encode new))
      dsimp only
      rw [read, hafter, Place.withNode]
      by_cases heq : l' = l
      · rw [if_pos heq]
        exact ⟨_, rfl⟩
      · rw [if_neg heq]
        exact ⟨_, rfl⟩
  read_of_write {t now p q data new} h := by
    change (t.writeBytes p (Text.encode new)).1.read q = .ok data at h
    change t.read q = .ok data ∨ _
    rcases hwrite : t.writeBytes p (Text.encode new) with ⟨t', e | ⟨⟩⟩
    · rw [writeBytes_error hwrite] at hwrite
      rw [hwrite] at h
      exact .inl h
    · obtain ⟨l, hopen, -, rfl, -⟩ := writeBytes_ok hwrite
      rw [hwrite] at h
      refine (read_of_put hopen h).imp_right fun hdata => ?_
      rw [hdata]
      exact readsAs_decode new
  read_of_written {t now p data new} hwritten h := by
    change (t.writeBytes p (Text.encode new)).1.read p = .ok data at h
    obtain ⟨l, -, -, -, hlocate⟩ := writeBytes_ok (Prod.ext rfl hwritten)
    rw [read, hlocate] at h
    cases h
    exact readsAs_decode new
  read_of_failed {t now p q data new e} hfailed h := by
    change (t.writeBytes p (Text.encode new)).1.read q = .ok data at h
    have hsame : (t.writeBytes p (Text.encode new)).1 = t := writeBytes_error (Prod.ext rfl hfailed)
    rw [hsame] at h
    exact h

end DiskTree

/-! ### Trees around other trees -/

variable {τ : Type} [FileTree τ]

instance [OverwritingTree τ] : OverwritingTree (Recorded τ) where
  readable_write {r _ _} h := OverwritingTree.readable_write (t := r.tree) h
  read_of_write {r _ _ _ _ _} h := OverwritingTree.read_of_write (t := r.tree) h
  read_of_written {r _ _ _ _} := OverwritingTree.read_of_written (t := r.tree)
  read_of_failed {r _ _ _ _ _ _} := OverwritingTree.read_of_failed (t := r.tree)

namespace Guarded

theorem write_cases (g : Guarded τ) (now : Float) (p data : String) :
    (∃ e, g.write now p data = (g, .error e)) ∨
      g.write now p data = g.setTree (FileTree.write g.tree now p data) := by
  unfold write
  split
  · exact .inl ⟨_, rfl⟩
  · split
    · next directory _ =>
      exact (g.change_tree .makeDirectories directory _).imp_left fun h => ⟨_, h⟩
    · exact .inr rfl

theorem read_ok {g : Guarded τ} {q data : String} (h : g.read q = .ok data) :
    g.refuses .read q = false ∧ g.refuses .decode q = false ∧ FileTree.read g.tree q = .ok data := by
  unfold read at h
  split at h
  · cases h
  · next hread =>
    split at h
    · cases h
    · next hdecode => exact ⟨by simpa using hread, by simpa using hdecode, h⟩

theorem read_of_tree {g : Guarded τ} {q data : String} (hread : g.refuses .read q = false)
    (hdecode : g.refuses .decode q = false) (h : FileTree.read g.tree q = .ok data) :
    g.read q = .ok data := by
  rw [read, hread, hdecode]
  exact h

omit [FileTree τ] in
theorem refuses_setTree (g : Guarded τ) (r : τ × Except TreeError Unit) (a : Access) (q : String) :
    (g.setTree r).1.refuses a q = g.refuses a q :=
  rfl

instance [OverwritingTree τ] : OverwritingTree (Guarded τ) where
  readable_write {g q data} h now p new := by
    change ∃ data', (g.write now p new).1.read q = .ok data'
    rcases g.write_cases now p new with ⟨e, hwrite⟩ | hwrite
    · exact ⟨data, by rw [hwrite]; exact h⟩
    · obtain ⟨hread, hdecode, htree⟩ := read_ok h
      obtain ⟨data', hdata'⟩ := OverwritingTree.readable_write htree now p new
      rw [hwrite]
      exact ⟨data', read_of_tree hread hdecode hdata'⟩
  read_of_write {g now p q data new} h := by
    change (g.write now p new).1.read q = .ok data at h
    change g.read q = .ok data ∨ _
    rcases g.write_cases now p new with ⟨e, hwrite⟩ | hwrite
    · rw [hwrite] at h
      exact .inl h
    · rw [hwrite] at h
      obtain ⟨hread, hdecode, htree⟩ := read_ok h
      rw [refuses_setTree] at hread hdecode
      exact (OverwritingTree.read_of_write htree).imp_left (read_of_tree hread hdecode)
  read_of_written {g now p data new} hwritten h := by
    change (g.write now p new).1.read p = .ok data at h
    change (g.write now p new).2 = .ok () at hwritten
    rcases g.write_cases now p new with ⟨e, hwrite⟩ | hwrite
    · rw [hwrite] at hwritten
      cases hwritten
    · rw [hwrite] at h hwritten
      exact OverwritingTree.read_of_written hwritten (read_ok h).2.2
  read_of_failed {g now p q data new e} hfailed h := by
    change (g.write now p new).1.read q = .ok data at h
    change (g.write now p new).2 = .error e at hfailed
    change g.read q = .ok data
    rcases g.write_cases now p new with ⟨e', hwrite⟩ | hwrite
    · rw [hwrite] at h
      exact h
    · rw [hwrite] at h hfailed
      obtain ⟨hread, hdecode, htree⟩ := read_ok h
      rw [refuses_setTree] at hread hdecode
      exact read_of_tree hread hdecode (OverwritingTree.read_of_failed hfailed htree)

end Guarded

end JavaProfile
