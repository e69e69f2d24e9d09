import JavaProfile.Proofs.Tree.Calls

/-!
Files and directories apart. No path of a tree in memory leads to a file and to a directory as long
as no call goes through a file; a directory that is made beneath one breaks this.
-/

namespace JavaProfile.MemoryTree

variable {t t' : MemoryTree} {k : Path}

/-- No file is a directory too, and nothing lies beneath one. -/
structure Separate (t : MemoryTree) : Prop where
  apart {k : Path} (hfile : t.hasFile k = true) : t.hasDirectory k = false
  nothing_beneath {k k' : Path} (hfile : t.hasFile k = true) (hk' : t.Stores k') :
    k'.isBeneath k = false

theorem separate_new : Separate {} where
  apart hfile := by cases hfile
  nothing_beneath hfile := by cases hfile

/-- In a closed tree what a file lies above would make it a directory. -/
theorem Closed.separate_iff (h : t.Closed) :
    t.Separate ↔ ∀ k, t.hasFile k = true → t.hasDirectory k = false := by
  constructor
  · exact fun hseparate k hfile => hseparate.apart hfile
  · intro hapart
    refine ⟨fun hfile => hapart _ hfile, fun {k k'} hfile hk' => ?_⟩
    by_contra hbeneath
    have hdirectory := h.around hk' (by simpa using hbeneath)
    rw [hapart k hfile] at hdirectory
    cases hdirectory

/-- A path with a file on the way to it. -/
def Through (t : MemoryTree) (k : Path) : Prop :=
  ∃ f, t.hasFile f = true ∧ k.isBeneath f = true

/-- A call that succeeds on a path with a file on the way to it, or that writes a file where paths
start, which is its own parent. -/
def Call.Crosses (t : MemoryTree) (c : Call) : Prop :=
  c.succeeds t = true ∧
    match c with
    | .write _ p _ => (key p).parts = [] ∨ t.Through (key p)
    | .makeDirectories p => t.Through (key p)
    | .removeTree _ => False
    | .setModified _ _ => False

/-! ### One call -/

theorem separate_makeDirectories_iff (h : t.Closed) (hseparate : t.Separate) {p : String}
    (hmake : t.makeDirectories p = (t', .ok ())) : t'.Separate ↔ ¬ t.Through (key p) := by
  have hfile (k : Path) : t'.hasFile k = t.hasFile k := by
    have hfiles := makeDirectories_files t p
    rw [hmake] at hfiles
    rw [hasFile, file?, hfiles, hasFile, file?]
  have hfree : t.hasFile (key p) = false := by
    rcases makeDirectories_cases t p with ⟨-, hcase⟩ | ⟨hfree, -⟩
    · rw [hcase] at hmake
      cases hmake
    · exact hfree
  have hclosed := h.makeDirectories p
  rw [hmake] at hclosed
  simp only [hclosed.separate_iff, hfile, Through, not_exists, not_and, Bool.not_eq_true]
  refine forall₂_congr fun k hk => ?_
  have hne : k ≠ key p := by
    rintro rfl
    rw [hfree] at hk
    cases hk
  rw [← Bool.not_eq_true, h.hasDirectory_makeDirectories hmake, hseparate.apart hk]
  simp [hne]

theorem separate_write_iff (h : t.Closed) (hseparate : t.Separate) {now : Float}
    {p data : String} (hwrite : t.write now p data = (t', .ok ())) :
    t'.Separate ↔ ¬ ((key p).parts = [] ∨ t.Through (key p)) := by
  have hclosed := h.write now p data
  rw [hwrite] at hclosed
  rcases write_cases t now p data with ⟨e, hcase⟩ | ⟨t₁, hfree, hmake, hcase⟩
  · rw [hcase] at hwrite
    cases hwrite
  · have hparent := (Path.isKey_key p).parent.key_text
    obtain rfl : { t₁ with files := putFile t₁.files (key p) ⟨data, .double now⟩ } = t' := by
      rw [hcase] at hwrite
      exact congrArg Prod.fst hwrite
    have hfile (k : Path) :
        hasFile { t₁ with files := putFile t₁.files (key p) ⟨data, .double now⟩ } k = true ↔
          k = key p ∨ t.hasFile k = true := by
      have hfiles := makeDirectories_files t (key p).parent.text
      rw [hmake] at hfiles
      rw [hasFile_iff, mem_keys_putFile, hfiles, ← hasFile_iff]
    have hdirectory (k : Path) :
        hasDirectory { t₁ with files := putFile t₁.files (key p) ⟨data, .double now⟩ } k = true ↔
          (k = (key p).parent ∨ (key p).parent.isBeneath k = true) ∨ t.hasDirectory k = true := by
      have hmade := h.hasDirectory_makeDirectories hmake (d := k)
      rwa [hparent] at hmade
    simp only [hclosed.separate_iff, ← Bool.not_eq_true, hdirectory, hfile, forall_eq_or_imp,
      not_or, Through, not_exists, not_and]
    by_cases hstart : (key p).parts = []
    · have hself : (key p).parent = key p := by
        rw [Path.parent, hstart, List.dropLast_nil, ← hstart]
      simp [hself, hstart]
    · simp only [← not_or, ← Path.isBeneath_iff_parent hstart, hfree, Path.not_isBeneath_self]
      simp only [Bool.false_eq_true, or_self, not_false_eq_true, true_and, hstart]
      refine forall₂_congr fun k hk => ?_
      rw [hseparate.apart hk]
      simp

theorem Separate.mono (h : t.Separate) (hfile : ∀ k, t'.hasFile k = true → t.hasFile k = true)
    (hdirectory : ∀ k, t'.hasDirectory k = true → t.hasDirectory k = true) : t'.Separate where
  apart {k} hk := by
    by_contra hdir
    have hbefore := hdirectory k (by simpa using hdir)
    rw [h.apart (hfile k hk)] at hbefore
    cases hbefore
  nothing_beneath hk hk' := h.nothing_beneath (hfile _ hk) (hk'.imp (hfile _) (hdirectory _))

theorem Separate.removeTree (h : t.Separate) (p : String) : (t.removeTree p).1.Separate := by
  rcases removeTree_cases t p with ⟨-, hcase⟩ | ⟨-, hcase⟩
  · rw [hcase]
    exact h
  · rw [hcase]
    apply h.mono
    · intro k hk
      rw [hasFile_iff] at hk ⊢
      exact (List.filter_sublist.map _).subset hk
    · intro k hk
      rw [hasDirectory_iff] at hk ⊢
      exact (List.mem_filter.mp hk).1

theorem Separate.setModified (h : t.Separate) {p : String} {time : Number}
    (hset : t.setModified? p time = some t') : t'.Separate := by
  obtain ⟨f, hf, rfl⟩ := Option.map_eq_some_iff.mp hset
  apply h.mono
  · intro k hk
    rw [hasFile_iff, mem_keys_putFile, ← hasFile_iff] at hk
    rcases hk with rfl | hk
    · rw [hasFile, hf]
      rfl
    · exact hk
  · exact fun k hk => hk

theorem separate_perform_iff (h : t.Closed) (hseparate : t.Separate) (c : Call) :
    (c.perform t).Separate ↔ ¬ c.Crosses t := by
  cases hsucceeds : c.succeeds t with
  | false => simp [Call.perform_of_fails hsucceeds, hseparate, Call.Crosses, hsucceeds]
  | true =>
    unfold Call.Crosses
    rw [hsucceeds, eq_self, true_and]
    cases c with
    | write now p data =>
      rcases hwrite : t.write now p data with ⟨t', e | ⟨⟩⟩
      · rw [Call.succeeds, hwrite] at hsucceeds
        cases hsucceeds
      · rw [Call.perform, hwrite]
        exact separate_write_iff h hseparate hwrite
    | makeDirectories p =>
      rcases hmake : t.makeDirectories p with ⟨t', e | ⟨⟩⟩
      · rw [Call.succeeds, hmake] at hsucceeds
        cases hsucceeds
      · rw [Call.perform, hmake]
        exact separate_makeDirectories_iff h hseparate hmake
    | removeTree p => exact iff_of_true (hseparate.removeTree p) id
    | setModified p time =>
      obtain ⟨t', hset⟩ := Option.isSome_iff_exists.mp hsucceeds
      rw [Call.perform, hset]
      exact iff_of_true (hseparate.setModified hset) id

/-! ### Runs of calls -/

theorem separate_run (calls : List Call) :
    (∀ before, before <+: calls → (run before).Separate) ↔
      ∀ before c, before ++ [c] <+: calls → ¬ c.Crosses (run before) := by
  constructor
  · intro hseparate before c hbegins
    have hafter := hseparate _ hbegins
    rw [run_append] at hafter
    have hbefore := hseparate before ((List.prefix_append _ _).trans hbegins)
    exact (separate_perform_iff (closed_run before) hbefore c).mp hafter
  · intro hcrosses before
    induction before using List.reverseRecOn with
    | nil => exact fun _ => separate_new
    | append_singleton before c ih =>
      intro hbegins
      rw [run_append]
      have hbefore := ih ((List.prefix_append _ _).trans hbegins)
      exact (separate_perform_iff (closed_run before) hbefore c).mpr (hcrosses _ _ hbegins)

/-- After a directory was removed, or was not there to be removed, only a file can be left. -/
theorem contains_removeTree (t : MemoryTree) (p : String) :
    FileTree.contains (t.removeTree p).1 p = .ok (t.hasFile (key p)) := by
  change Except.ok ((t.removeTree p).1.hasFile (key p) || (t.removeTree p).1.hasDirectory (key p)) =
    _
  rcases removeTree_cases t p with ⟨hnone, hcase⟩ | ⟨-, hcase⟩
  · rw [hcase, hnone, Bool.or_false]
  · have hfile : (t.removeTree p).1.hasFile (key p) = t.hasFile (key p) := by
      rw [Bool.eq_iff_iff, hasFile_iff, hasFile_iff, hcase]
      simp [Path.not_isBeneath_self]
    have hdirectory : hasDirectory (t.removeTree p).1 (key p) = false := by
      rw [hcase, hasDirectory]
      simp
    rw [hfile, hdirectory, Bool.or_false]

/-- Files and directories stay apart in a run of calls just if no call of it crosses a file. What is
left of a path after its directory was removed is a file, and there is none where they are apart. -/
theorem separate_run_and_removed (calls : List Call) :
    ((∀ before, before <+: calls → (run before).Separate) ↔
        ∀ before c, before ++ [c] <+: calls → ¬ c.Crosses (run before)) ∧
      ∀ p, FileTree.contains ((run calls).removeTree p).1 p =
        .ok ((run calls).hasFile (key p)) :=
  ⟨separate_run calls, contains_removeTree _⟩

theorem not_separate_beneath_file :
    let t := run [.write 0 "/a" "x", .makeDirectories "/a/b"]
    ¬ t.Separate ∧ (t.removeTree "/a").2 = .ok () ∧
      FileTree.contains (t.removeTree "/a").1 "/a" = .ok true := by
  refine ⟨fun h => ?_, by decide +kernel, by decide +kernel⟩
  have hfile : hasFile (run [.write 0 "/a" "x", .makeDirectories "/a/b"]) (key "/a") = true := by
    decide +kernel
  have hdirectory :
      hasDirectory (run [.write 0 "/a" "x", .makeDirectories "/a/b"]) (key "/a") = true := by
    decide +kernel
  rw [h.apart hfile] at hdirectory
  cases hdirectory

end JavaProfile.MemoryTree
