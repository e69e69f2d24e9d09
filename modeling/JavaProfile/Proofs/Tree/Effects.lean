import JavaProfile.Proofs.Tree.Calls
import JavaProfile.Proofs.Tree.Folder

/-!
What calls on a tree in memory do to what is stored. All lies in directories, a call that fails
changes nothing, a removal takes what lies beneath and nothing else, and a walk finds each file
beneath a directory once, in the order of the parts.
-/

namespace JavaProfile

namespace Path

variable {p q : Path}

theorem eq_of_parts (h : p.root = q.root) (hparts : p.parts = q.parts) : p = q := by
  cases p
  cases q
  simp_all

theorem orderKey_lt_iff (h : p.root = q.root) : p.orderKey < q.orderKey ↔ p.parts < q.parts := by
  simp only [orderKey, h]
  split <;> simp

theorem ordered_iff (h : p.root = q.root) : p.ordered q = true ↔ p.parts ≤ q.parts := by
  simp [ordered, orderKey_lt_iff h.symm]

theorem root_eq_of_isBeneath (h : p.isBeneath q = true) : p.root = q.root := by
  obtain ⟨way, -, rfl⟩ := isBeneath_iff.mp h
  rfl

end Path

namespace MemoryTree

variable {t t' : MemoryTree} {k : Path} {p : String}

/-! ### Removals -/

/-- A directory was there, and the trees differ in it and in what lies beneath it. -/
structure Removes (k : Path) (t t' : MemoryTree) : Prop where
  present : t.hasDirectory k = true
  directories (d : Path) :
    t'.hasDirectory d = true ↔ t.hasDirectory d = true ∧ d ≠ k ∧ d.isBeneath k = false
  files (f : Path) : t'.file? f = if f.isBeneath k then none else t.file? f

theorem removes (h : t.hasDirectory (key p) = true) :
    ∃ t', t.removeTree p = (t', .ok ()) ∧ Removes (key p) t t' := by
  rcases removeTree_cases t p with ⟨hnone, -⟩ | ⟨-, hcase⟩
  · simp [h] at hnone
  · refine ⟨_, hcase, h, fun d => ?_, fun f => ?_⟩
    · rw [hasDirectory_iff, hasDirectory_iff, List.mem_filter]
      simp
    · have hfilter := lookup_filter (fun f => !f.isBeneath (key p)) f t.files
      rw [file?, hfilter, file?]
      cases f.isBeneath (key p) <;> rfl

theorem removeTree_missing (h : t.hasDirectory (key p) = false) :
    t.removeTree p = (t, .error (.noDirectory p)) := by
  rw [removeTree, h]
  rfl

/-! ### Walks -/

/-- Each file beneath a directory, once and in the order of its parts. -/
structure Lists (t : MemoryTree) (d : Path) (entries : List FileEntry) : Prop where
  ascending : entries.Pairwise fun a b => a.path.parts < b.path.parts
  mem (e : FileEntry) :
    e ∈ entries ↔ e.path.isBeneath d = true ∧ ∃ f, t.file? e.path = some f ∧ e = entry e.path f

theorem Closed.walk_lists (h : t.Closed) (hroot : t.hasDirectory (key p) = true) :
    ∃ entries, t.walk p = .ok entries ∧ t.Lists (key p) entries := by
  set found := (t.files.filter fun f => f.1.isBeneath (key p)).mergeSort
    fun a b => a.1.ordered b.1 with hfound
  have hmem (f : Path × StoredFile) :
      f ∈ found ↔ f.1.isBeneath (key p) = true ∧ t.file? f.1 = some f.2 := by
    rw [hfound, List.mem_mergeSort, List.mem_filter, file?, lookup_eq_some_iff_mem h.distinct,
      and_comm]
  have hsorted := Path.sorted_mergeSort (t.files.filter fun f => f.1.isBeneath (key p))
  have hdistinct : found.Pairwise fun a b => a.1 ≠ b.1 := by
    rw [← List.pairwise_map (f := Prod.fst) (R := fun k k' => k ≠ k')]
    apply (((List.mergeSort_perm _ _).map _).nodup_iff).mpr
    exact h.distinct.sublist (List.filter_sublist.map _)
  refine ⟨found.map fun f => entry f.1 f.2, by rw [walk, if_pos hroot], ?_, fun e => ?_⟩
  · -- All paths start at the root of the directory, so that the order is that of the parts.
    rw [List.pairwise_map]
    apply (hsorted.and hdistinct).imp_of_mem
    rintro a b ha hb ⟨hle, hne⟩
    have hsame : a.1.root = b.1.root := by
      rw [Path.root_eq_of_isBeneath ((hmem a).mp ha).1,
        Path.root_eq_of_isBeneath ((hmem b).mp hb).1]
    apply lt_of_le_of_ne ((Path.ordered_iff hsame).mp hle)
    exact fun hparts => hne (Path.eq_of_parts hsame hparts)
  · simp only [List.mem_map, hmem]
    constructor
    · rintro ⟨f, ⟨hbeneath, hf⟩, rfl⟩
      exact ⟨hbeneath, f.2, hf, rfl⟩
    · rintro ⟨hbeneath, f, hf, he⟩
      exact ⟨(e.path, f), ⟨hbeneath, hf⟩, he.symm⟩

/-! ### Runs of calls -/

/-- After any calls on a new tree all lies in directories, a call that fails changes nothing, a
removal takes just what lies beneath, and a walk finds just that. -/
theorem run_effects (calls : List Call) :
    (∀ k, (run calls).Stores k → ∀ d ∈ k.parents, (run calls).hasDirectory d = true) ∧
      (∀ c : Call, c.succeeds (run calls) = false → c.perform (run calls) = run calls) ∧
      (∀ p, (run calls).hasDirectory (key p) = true →
        ∃ t', (run calls).removeTree p = (t', .ok ()) ∧ Removes (key p) (run calls) t') ∧
      (∀ p, (run calls).hasDirectory (key p) = false →
        (run calls).removeTree p = (run calls, .error (.noDirectory p))) ∧
      ∀ p, (run calls).hasDirectory (key p) = true →
        ∃ entries, (run calls).walk p = .ok entries ∧ (run calls).Lists (key p) entries := by
  refine ⟨fun k hk d hd => ?_, fun c => Call.perform_of_fails, ?_, ?_, ?_⟩
  · exact (closed_run calls).around hk (Path.mem_parents_iff.mp hd)
  · exact fun p => removes
  · exact fun p => removeTree_missing
  · exact fun p => (closed_run calls).walk_lists

def shopCalls : List Call :=
  [.write 0 "/shop/src/A.java" "a", .makeDirectories "/shop/docs", .write 1 "/shop" "b",
    .write 2 "/shop/src/b/C.java" "", .setModified "/shop/src/A.java" (.int 7),
    .removeTree "/shop/b"]

theorem run_effects_shop :
    let t := run shopCalls
    t.hasDirectory (key "/shop/src/b") = true ∧ (Call.write 1 "/shop" "b").perform t = t ∧
      (∃ t', t.removeTree "/shop/src" = (t', .ok ()) ∧
        t'.hasFile (key "/shop/src/A.java") = false ∧ t'.hasDirectory (key "/shop/docs") = true) ∧
      ∃ entries, t.walk "/shop" = .ok entries ∧ t.Lists (key "/shop") entries := by
  obtain ⟨haround, hfails, hremoves, -, hwalk⟩ := run_effects shopCalls
  refine ⟨haround (key "/shop/src/b/C.java") (.inl ?_) _ ?_, hfails _ ?_, ?_, hwalk _ ?_⟩
  · decide +kernel
  · decide +kernel
  · decide +kernel
  · obtain ⟨t', hremove, hafter⟩ := hremoves "/shop/src" (by decide +kernel)
    refine ⟨t', hremove, ?_, ?_⟩
    · rw [hasFile, hafter.files, if_pos (by decide +kernel)]
      rfl
    · rw [hafter.directories]
      decide +kernel
  · decide +kernel

end MemoryTree

end JavaProfile
