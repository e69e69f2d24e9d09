import JavaProfile.Proofs.Project.Beside
import JavaProfile.Proofs.Tree.Keys

/-!
Calls on a tree in memory. Whatever was called on a new tree, failing calls included, all that is
stored has a key of its own, and what it lies beneath are directories.
-/

namespace JavaProfile

theorem takeWhile_eq_filter {α : Type} {test : α → Bool} {l : List α}
    (h : l.Pairwise fun a b => test b = true → test a = true) :
    l.takeWhile test = l.filter test := by
  induction l with
  | nil => rfl
  | cons a l ih =>
    obtain ⟨hfirst, hrest⟩ := List.pairwise_cons.mp h
    by_cases ha : test a = true
    · rw [List.takeWhile_cons_of_pos ha, List.filter_cons_of_pos ha, ih hrest]
    · rw [List.takeWhile_cons_of_neg ha, List.filter_cons_of_neg ha, List.filter_eq_nil_iff.mpr]
      exact fun b hb htest => ha (hfirst b hb htest)

namespace Path

variable {p q r : Path}

theorem isBeneath_trans (h : p.isBeneath q = true) (h' : q.isBeneath r = true) :
    p.isBeneath r = true := by
  obtain ⟨way, -, rfl⟩ := isBeneath_iff.mp h
  obtain ⟨way', hway', rfl⟩ := isBeneath_iff.mp h'
  exact isBeneath_iff.mpr ⟨way' ++ way, by simp [hway'], down_down _ _ _⟩

theorem length_lt_of_isBeneath (h : p.isBeneath q = true) : q.parts.length < p.parts.length := by
  simp only [isBeneath, Bool.and_eq_true, decide_eq_true_eq] at h
  exact h.1.2

theorem not_isBeneath_self (p : Path) : p.isBeneath p = false := by
  by_contra h
  exact absurd (length_lt_of_isBeneath (by simpa using h)) (Nat.lt_irrefl _)

theorem isBeneath_parent (h : p.parts ≠ []) : p.isBeneath p.parent = true :=
  isBeneath_iff.mpr ⟨[p.parts.getLast h], by simp, by
    rw [down, parent, List.dropLast_concat_getLast]⟩

theorem isBeneath_iff_parent (h : p.parts ≠ []) :
    p.isBeneath q = true ↔ q = p.parent ∨ p.parent.isBeneath q = true := by
  constructor
  · intro hbeneath
    obtain ⟨way, hway, rfl⟩ := isBeneath_iff.mp hbeneath
    have hparent : (q.down way).parent = q.down way.dropLast := by
      simp [parent, down, List.dropLast_append_of_ne_nil hway]
    rw [hparent]
    by_cases hone : way.dropLast = []
    · left
      simp [hone, down]
    · exact .inr (isBeneath_iff.mpr ⟨_, hone, rfl⟩)
  · rintro (rfl | hbeneath)
    · exact isBeneath_parent h
    · exact isBeneath_trans (isBeneath_parent h) hbeneath

theorem parts_ne_nil_of_isBeneath (h : p.isBeneath q = true) : p.parts ≠ [] := by
  intro hnone
  have hlength := length_lt_of_isBeneath h
  rw [hnone] at hlength
  exact Nat.not_lt_zero _ hlength

theorem eq_or_isBeneath (h : p.isBeneath q = true) (h' : p.isBeneath r = true) :
    q = r ∨ q.isBeneath r = true ∨ r.isBeneath q = true := by
  obtain ⟨way, -, rfl⟩ := isBeneath_iff.mp h
  obtain ⟨way', -, heq⟩ := isBeneath_iff.mp h'
  obtain ⟨root, parts⟩ := q
  obtain ⟨root', parts'⟩ := r
  obtain ⟨rfl, hparts⟩ : root = root' ∧ parts ++ way = parts' ++ way' := Path.mk.inj heq
  rcases List.append_eq_append_iff.mp hparts with ⟨rest, rfl, -⟩ | ⟨rest, rfl, -⟩
  · by_cases hrest : rest = []
    · simp [hrest]
    · exact .inr (.inr (isBeneath_iff.mpr ⟨rest, hrest, rfl⟩))
  · by_cases hrest : rest = []
    · simp [hrest]
    · exact .inr (.inl (isBeneath_iff.mpr ⟨rest, hrest, rfl⟩))

theorem pairwise_parents (p : Path) :
    (p :: p.parents.reverse).Pairwise fun q r => q.isBeneath r = true := by
  rw [List.pairwise_cons, List.pairwise_reverse, parents, List.pairwise_map]
  refine ⟨fun q hq => mem_parents_iff.mp (List.mem_reverse.mp hq), ?_⟩
  apply List.pairwise_lt_range.imp_of_mem
  intro n m _ hm hlt
  apply mem_parents_iff.mp
  refine List.mem_map.mpr ⟨n, ?_, ?_⟩
  · rw [List.length_take]
    exact List.mem_range.mpr (by have := List.mem_range.mp hm; omega)
  · rw [List.take_take, Nat.min_eq_left hlt.le]

end Path

namespace MemoryTree

variable {t t' : MemoryTree} {k k' d : Path} {p : String}

/-! ### What single operations do -/

theorem hasFile_iff : t.hasFile k = true ↔ k ∈ t.files.map Prod.fst := by
  rw [hasFile, file?, lookup_isSome, List.contains_iff_mem]

theorem hasDirectory_iff : t.hasDirectory k = true ↔ k ∈ t.directories := by
  rw [hasDirectory, List.contains_iff_mem]

theorem mem_keys_putFile {files : List (Path × StoredFile)} {f : StoredFile} :
    k' ∈ (putFile files k f).map Prod.fst ↔ k' = k ∨ k' ∈ files.map Prod.fst := by
  rw [map_putFile]
  split
  · next hk =>
    rw [List.contains_iff_mem] at hk
    exact ⟨.inr, fun h => h.elim (fun heq => heq ▸ hk) id⟩
  · rw [List.mem_append, List.mem_singleton, or_comm]

theorem nodup_keys_putFile {files : List (Path × StoredFile)} (h : (files.map Prod.fst).Nodup)
    (k : Path) (f : StoredFile) : ((putFile files k f).map Prod.fst).Nodup := by
  rw [map_putFile]
  split
  · exact h
  · next hk =>
    rw [List.contains_iff_mem] at hk
    exact List.nodup_append.mpr ⟨h, by simp, by grind⟩

theorem makeDirectories_cases (t : MemoryTree) (p : String) :
    (t.hasFile (key p) = true ∧ t.makeDirectories p = (t, .error (.fileExists p))) ∨
      (t.hasFile (key p) = false ∧ t.makeDirectories p =
        ({ t with directories := t.missing (key p) ++ t.directories }, .ok ())) := by
  rw [makeDirectories]
  cases hfile : t.hasFile (key p) with
  | true => exact .inl ⟨rfl, rfl⟩
  | false => exact .inr ⟨rfl, rfl⟩

theorem write_cases (t : MemoryTree) (now : Float) (p data : String) :
    (∃ e, t.write now p data = (t, .error e)) ∨
      ∃ t', t.hasDirectory (key p) = false ∧
        t.makeDirectories (key p).parent.text = (t', .ok ()) ∧
        t.write now p data =
          ({ t' with files := putFile t'.files (key p) ⟨data, .double now⟩ }, .ok ()) := by
  rw [write, impliedDirectory]
  cases hdirectory : t.hasDirectory (key p) with
  | true => exact .inl ⟨_, rfl⟩
  | false =>
    rcases makeDirectories_cases t (key p).parent.text with ⟨-, hmake⟩ | ⟨-, hmake⟩
    · left
      exact ⟨.fileExists (key p).parent.text, by simp [hmake]⟩
    · right
      exact ⟨_, rfl, hmake, by simp [hmake]⟩

theorem removeTree_cases (t : MemoryTree) (p : String) :
    (t.hasDirectory (key p) = false ∧ t.removeTree p = (t, .error (.noDirectory p))) ∨
      (t.hasDirectory (key p) = true ∧ t.removeTree p =
        ({ files := t.files.filter fun f => !f.1.isBeneath (key p)
           directories := t.directories.filter fun d => d ≠ key p && !d.isBeneath (key p) },
          .ok ())) := by
  rw [removeTree]
  cases hdirectory : t.hasDirectory (key p) with
  | true => exact .inr ⟨rfl, rfl⟩
  | false => exact .inl ⟨rfl, rfl⟩

/-! ### Trees that are closed -/

def Stores (t : MemoryTree) (k : Path) : Prop :=
  t.hasFile k = true ∨ t.hasDirectory k = true

/-- All is stored under keys, no file twice, and it lies beneath directories. -/
structure Closed (t : MemoryTree) : Prop where
  distinct : (t.files.map Prod.fst).Nodup
  keyed {k : Path} (hk : t.Stores k) : k.IsKey
  around {k d : Path} (hk : t.Stores k) (hd : k.isBeneath d = true) : t.hasDirectory d = true

theorem closed_new : Closed {} where
  distinct := List.nodup_nil
  keyed {k} hk := by
    rcases hk with hfile | hdirectory
    · cases hfile
    · obtain rfl : k = ⟨.single, []⟩ := by simpa [hasDirectory] using hdirectory
      exact ⟨fun part hpart => absurd hpart List.not_mem_nil, rfl⟩
  around {k d} hk hd := by
    rcases hk with hfile | hdirectory
    · cases hfile
    · obtain rfl : k = ⟨.single, []⟩ := by simpa [hasDirectory] using hdirectory
      exact absurd rfl (Path.parts_ne_nil_of_isBeneath hd)

namespace Closed

theorem mem_missing (h : t.Closed) :
    d ∈ t.missing k ↔ (d = k ∨ k.isBeneath d = true) ∧ t.hasDirectory d = false := by
  have hpairwise : (k :: k.parents.reverse).Pairwise fun a b =>
      (!t.hasDirectory b) = true → (!t.hasDirectory a) = true := by
    apply k.pairwise_parents.imp
    intro a b hab hb
    by_contra ha
    rw [h.around (.inr (by simpa using ha)) hab] at hb
    cases hb
  rw [missing, takeWhile_eq_filter hpairwise, List.mem_filter, List.mem_cons, List.mem_reverse,
    Path.mem_parents_iff, Bool.not_eq_true']

theorem hasDirectory_makeDirectories (h : t.Closed)
    (hmake : t.makeDirectories p = (t', .ok ())) :
    t'.hasDirectory d = true ↔
      (d = key p ∨ (key p).isBeneath d = true) ∨ t.hasDirectory d = true := by
  rcases makeDirectories_cases t p with ⟨-, hcase⟩ | ⟨-, hcase⟩
  · rw [hcase] at hmake
    cases hmake
  · rw [hcase] at hmake
    cases hmake
    rw [hasDirectory_iff, List.mem_append, h.mem_missing, ← hasDirectory_iff]
    cases t.hasDirectory d <;> simp

theorem makeDirectories (h : t.Closed) (p : String) : (t.makeDirectories p).1.Closed := by
  rcases makeDirectories_cases t p with ⟨-, hcase⟩ | ⟨-, hcase⟩
  · rw [hcase]
    exact h
  · have hfiles := makeDirectories_files t p
    have hdirectories (d : Path) := h.hasDirectory_makeDirectories (d := d) hcase
    rw [hcase] at hfiles ⊢
    generalize MemoryTree.mk t.files (t.missing (key p) ++ t.directories) = t' at *
    have hstores {k : Path} (hk : t'.Stores k) :
        (k = key p ∨ (key p).isBeneath k = true) ∨ t.Stores k := by
      rcases hk with hfile | hdirectory
      · rw [hasFile_iff, hfiles, ← hasFile_iff] at hfile
        exact .inr (.inl hfile)
      · exact ((hdirectories k).mp hdirectory).imp_right .inr
    refine ⟨hfiles ▸ h.distinct, fun hk => ?_, fun hk hd => (hdirectories _).mpr ?_⟩
    · rcases hstores hk with (rfl | hbeneath) | hbefore
      · exact Path.isKey_key p
      · exact (Path.isKey_key p).of_beneath hbeneath
      · exact h.keyed hbefore
    · rcases hstores hk with (rfl | hbeneath) | hbefore
      · exact .inl (.inr hd)
      · exact .inl (.inr (Path.isBeneath_trans hbeneath hd))
      · exact .inr (h.around hbefore hd)

theorem putFile (h : t.Closed) (hk : k.IsKey)
    (haround : ∀ d, k.isBeneath d = true → t.hasDirectory d = true) (f : StoredFile) :
    Closed { t with files := putFile t.files k f } := by
  have hstores {k' : Path} (hk' : Stores { t with files := MemoryTree.putFile t.files k f } k') :
      k' = k ∨ t.Stores k' := by
    rcases hk' with hfile | hdirectory
    · rw [hasFile_iff, mem_keys_putFile, ← hasFile_iff] at hfile
      exact hfile.imp_right .inl
    · exact .inr (.inr hdirectory)
  refine ⟨nodup_keys_putFile h.distinct k f, fun hk' => ?_, fun hk' hd => ?_⟩
  · rcases hstores hk' with rfl | hbefore
    · exact hk
    · exact h.keyed hbefore
  · rcases hstores hk' with rfl | hbefore
    · exact haround _ hd
    · exact h.around hbefore hd

theorem write (h : t.Closed) (now : Float) (p data : String) :
    (t.write now p data).1.Closed := by
  rcases write_cases t now p data with ⟨e, hwrite⟩ | ⟨t₁, -, hmake, hwrite⟩
  · rw [hwrite]
    exact h
  · have hparent := (Path.isKey_key p).parent.key_text
    have hclosed := h.makeDirectories (key p).parent.text
    rw [hmake] at hclosed
    rw [hwrite]
    apply hclosed.putFile (Path.isKey_key p)
    intro d hd
    rw [h.hasDirectory_makeDirectories hmake, hparent]
    exact .inl ((Path.isBeneath_iff_parent (Path.parts_ne_nil_of_isBeneath hd)).mp hd)

theorem removeTree (h : t.Closed) (p : String) : (t.removeTree p).1.Closed := by
  rcases removeTree_cases t p with ⟨-, hcase⟩ | ⟨-, hcase⟩
  · rw [hcase]
    exact h
  · rw [hcase]
    dsimp only
    set t' : MemoryTree := ⟨_, _⟩ with ht'
    have hdirectory {d : Path} : t'.hasDirectory d = true ↔
        t.hasDirectory d = true ∧ d ≠ key p ∧ d.isBeneath (key p) = false := by
      rw [hasDirectory_iff, List.mem_filter, ← hasDirectory_iff]
      simp
    have hstores {k : Path} (hk : t'.Stores k) :
        t.Stores k ∧ k.isBeneath (key p) = false := by
      rcases hk with hfile | hdir
      · rw [hasFile_iff] at hfile
        obtain ⟨f, hf, rfl⟩ := List.mem_map.mp hfile
        obtain ⟨hf, hapart⟩ := List.mem_filter.mp hf
        exact ⟨.inl (hasFile_iff.mpr (List.mem_map_of_mem hf)), by simpa using hapart⟩
      · obtain ⟨hdir, -, hapart⟩ := hdirectory.mp hdir
        exact ⟨.inr hdir, hapart⟩
    refine ⟨h.distinct.sublist (List.filter_sublist.map _), fun hk => h.keyed (hstores hk).1,
      fun {k d} hk hd => hdirectory.mpr ?_⟩
    obtain ⟨hbefore, hapart⟩ := hstores hk
    refine ⟨h.around hbefore hd, ?_, ?_⟩
    · rintro rfl
      rw [hd] at hapart
      cases hapart
    · by_contra hbeneath
      rw [Path.isBeneath_trans hd (by simpa using hbeneath)] at hapart
      cases hapart

theorem setModified (h : t.Closed) {time : Number} (hset : t.setModified? p time = some t') :
    t'.Closed := by
  obtain ⟨f, hf, rfl⟩ := Option.map_eq_some_iff.mp hset
  have hstored : t.Stores (key p) := .inl (by rw [hasFile, hf]; rfl)
  exact h.putFile (h.keyed hstored) (fun d hd => h.around hstored hd) _

theorem tidy (h : t.Closed) : t.Tidy := by
  have hstored {f : Path × StoredFile} (hf : f ∈ t.sourceFiles) : t.Stores f.1 :=
    .inl (hasFile_iff.mpr (List.mem_map_of_mem (List.mem_filter.mp hf).1))
  refine ⟨fun f hf => (h.keyed (hstored hf)).key_text, fun f hf d hd => ?_⟩
  exact hasDirectory_iff.mp (h.around (hstored hf) (Path.mem_parents_iff.mp hd))

end Closed

/-! ### Runs of calls -/

/-- A call that changes what a tree holds. -/
inductive Call where
  | write (now : Float) (path data : String)
  | makeDirectories (path : String)
  | removeTree (path : String)
  | setModified (path : String) (time : Number)

namespace Call

/-- The tree after a call, whether or not it succeeds. -/
def perform (t : MemoryTree) : Call → MemoryTree
  | write now path data => (t.write now path data).1
  | makeDirectories path => (t.makeDirectories path).1
  | removeTree path => (t.removeTree path).1
  | setModified path time => (t.setModified? path time).getD t

def succeeds (t : MemoryTree) : Call → Bool
  | write now path data => (t.write now path data).2.isOk
  | makeDirectories path => (t.makeDirectories path).2.isOk
  | removeTree path => (t.removeTree path).2.isOk
  | setModified path time => (t.setModified? path time).isSome

end Call

theorem Call.perform_of_fails {c : Call} (h : c.succeeds t = false) : c.perform t = t := by
  cases c with
  | write now p data =>
    rcases write_cases t now p data with ⟨e, hcase⟩ | ⟨t', -, -, hcase⟩
    · rw [perform, hcase]
    · rw [succeeds, hcase] at h
      cases h
  | makeDirectories p =>
    rcases makeDirectories_cases t p with ⟨-, hcase⟩ | ⟨-, hcase⟩
    · rw [perform, hcase]
    · rw [succeeds, hcase] at h
      cases h
  | removeTree p =>
    rcases removeTree_cases t p with ⟨-, hcase⟩ | ⟨-, hcase⟩
    · rw [perform, hcase]
    · rw [succeeds, hcase] at h
      cases h
  | setModified p time =>
    have hnone : t.setModified? p time = none := by simpa [succeeds] using h
    rw [perform, hnone, Option.getD_none]

def run (calls : List Call) : MemoryTree :=
  calls.foldl Call.perform {}

theorem run_append (calls : List Call) (c : Call) : run (calls ++ [c]) = c.perform (run calls) := by
  rw [run, List.foldl_append, List.foldl_cons, List.foldl_nil, run]

theorem Closed.perform (h : t.Closed) (c : Call) : (c.perform t).Closed := by
  cases c with
  | write now p data => exact h.write now p data
  | makeDirectories p => exact h.makeDirectories p
  | removeTree p => exact h.removeTree p
  | setModified p time =>
    rw [Call.perform]
    cases hset : t.setModified? p time with
    | none => exact h
    | some t' => exact h.setModified hset

theorem closed_run (calls : List Call) : (run calls).Closed := by
  induction calls using List.reverseRecOn with
  | nil => exact closed_new
  | append_singleton calls c ih =>
    rw [run_append]
    exact ih.perform c

end MemoryTree

end JavaProfile
