import JavaProfile.Proofs.Tree.Walking

/-!
Calls on a disk. Whatever was called on an empty disk, failing calls included, its nodes have names
and lie in directories, each once.
-/

namespace JavaProfile.DiskTree

variable {t t' : DiskTree} {l here : Location} {n : Node} {aim : Aim} {links : ℕ} {p : Path}

/-! ### Nodes put and removed -/

/-- A location with names in it, all on the way to it directories. -/
structure Settled (t : DiskTree) (l : Location) : Prop where
  named : ∀ name ∈ l, IsName name
  around {before after : Location} (h : l = before ++ after) (hafter : after ≠ []) :
    t.node? before = some .directory

theorem Sound.settled (ht : t.Sound) (h : t.node? l = some n) : t.Settled l := by
  by_cases hl : l = []
  · subst hl
    refine ⟨by simp, fun h hafter => ?_⟩
    exact absurd (List.append_eq_nil_iff.mp h.symm).2 hafter
  · have hnode := mem_of_node? hl h
    exact ⟨ht.named hnode, fun heq hafter => ht.around (heq ▸ hnode) hafter⟩

theorem Sound.settled_free (ht : t.Sound) (h : Place.Lies t (.free l)) : t.Settled l := by
  obtain ⟨around, name, rfl, hname, hdirectory⟩ := h
  have haround := ht.settled hdirectory
  refine ⟨fun q hq => ?_, fun {before after} heq hafter => ?_⟩
  · rcases List.mem_append.mp hq with hq | hq
    · exact haround.named q hq
    · rwa [List.mem_singleton.mp hq]
  · obtain ⟨rest, last, rfl⟩ := List.eq_nil_or_concat after |>.resolve_left hafter
    rw [List.concat_eq_append, ← List.append_assoc] at heq
    have hbefore : around = before ++ rest := (List.append_inj' heq rfl).1
    by_cases hrest : rest = []
    · rw [hrest, List.append_nil] at hbefore
      exact hbefore ▸ hdirectory
    · exact haround.around hbefore hrest

theorem Sound.put (ht : t.Sound) (hopen : t.Open l) (hl : t.Settled l) (n : Node) :
    (t.put l n).Sound := by
  have hother {before : Location} (hbefore : t.node? before = some .directory) :
      (t.put l n).node? before = some .directory := by
    rw [node?_put_other (hopen.ne_of_node hbefore (by simp))]
    exact hbefore
  have hmem {x : Location × Node} (hx : x ∈ (t.put l n).nodes) : x = (l, n) ∨ x ∈ t.nodes :=
    (List.mem_cons.mp hx).imp_right fun hx => (List.mem_filter.mp hx).1
  refine ⟨fun hx => ?_, fun hx hafter => hother ?_, hother ht.here⟩
  · rcases hmem hx with heq | hx
    · cases heq
      exact hl.named
    · exact ht.named hx
  · rcases hmem hx with heq | hx
    · exact hl.around (Prod.mk.inj heq).1.symm hafter
    · exact ht.around hx hafter

def restrict (t : DiskTree) (keep : Location → Bool) : DiskTree :=
  { t with nodes := t.nodes.filter fun x => keep x.1 }

theorem node?_restrict {keep : Location → Bool} (hkeep : keep l = true) :
    (t.restrict keep).node? l = t.node? l := by
  rw [node?, node?, restrict, lookup_filter, if_pos hkeep]

theorem node?_of_restrict {keep : Location → Bool} (h : (t.restrict keep).node? l = some n) :
    t.node? l = some n := by
  by_cases hl : l = []
  · rw [node?, if_pos hl] at h ⊢
    exact h
  · rw [← h, node?_restrict]
    have hmem := mem_of_node? hl h
    exact (List.mem_filter.mp hmem).2

/-- A sound tree where relative paths start at the root and nothing is held twice. -/
structure Rooted (t : DiskTree) : Prop extends t.Sound where
  start : t.here = []
  distinct : (t.nodes.map Prod.fst).Nodup

theorem Rooted.put (ht : t.Rooted) (hopen : t.Open l) (hl : t.Settled l) (n : Node) :
    (t.put l n).Rooted where
  toSound := ht.toSound.put hopen hl n
  start := ht.start
  distinct := by
    rw [DiskTree.put, List.map_cons, List.nodup_cons]
    exact ⟨by simp, ht.distinct.sublist (List.filter_sublist.map _)⟩

theorem Rooted.restrict (ht : t.Rooted) (keep : Location → Bool)
    (hkeep : ∀ before after n, (before ++ after, n) ∈ t.nodes → after ≠ [] →
      keep (before ++ after) = true → before ≠ [] → keep before = true) :
    (t.restrict keep).Rooted := by
  refine ⟨⟨fun hx => ht.named (List.mem_filter.mp hx).1, fun {before after n} hx hafter => ?_, ?_⟩,
    ht.start, ht.distinct.sublist (List.filter_sublist.map _)⟩
  · obtain ⟨hx, hkept⟩ := List.mem_filter.mp hx
    by_cases hbefore : before = []
    · rw [hbefore]
      rfl
    · rw [node?_restrict (hkeep before after n hx hafter hkept hbefore)]
      exact ht.around hx hafter
  · change node? _ t.here = _
    rw [ht.start]
    rfl

theorem resolve_of_restrict {keep : Location → Bool} {parts : List String}
    (h : resolve (t.restrict keep) aim links here parts = .ok (.taken l n)) :
    resolve t aim links here parts = .ok (.taken l n) :=
  resolve_of_nodes (fun _ _ hnode _ => node?_of_restrict hnode) h

/-! ### Single operations -/

theorem Rooted.writeBytes (ht : t.Rooted) (path : String) (bytes : List UInt8) :
    (t.writeBytes path bytes).1.Rooted := by
  unfold DiskTree.writeBytes
  split
  · next l old hlocate =>
    have hnode : t.node? l = some (.file old) := locate_fits hlocate
    exact ht.put (.inr ⟨old, hnode⟩) (ht.settled hnode) _
  · exact ht
  · next l hlocate =>
    have hlies := locate_lies ht.toSound (Path.spelled_ofString path) hlocate
    exact ht.put (.inl (locate_fits hlocate)) (ht.settled_free hlies) _
  · exact ht

theorem Rooted.makeNode (ht : t.Rooted) {path : String} (h : t.makeNode path n = .ok t') :
    t'.Rooted := by
  unfold DiskTree.makeNode at h
  split at h
  · cases h
  · next l hlocate =>
    cases h
    have hlies := locate_lies ht.toSound (Path.spelled_ofString path) hlocate
    exact ht.put (.inl (locate_fits hlocate)) (ht.settled_free hlies) _
  · cases h

theorem Rooted.makeLink (ht : t.Rooted) (path target : String) :
    (t.makeLink path target).1.Rooted := by
  unfold DiskTree.makeLink
  split
  · exact ht
  · split
    · exact ht
    · split
      · exact ht
      · split
        · next t' hmake => exact ht.makeNode hmake
        · exact ht
        · exact ht

/-- A tree at its root, and the directory that was made in it. -/
def Makes (r : DiskTree × Except TreeError Location) : Prop :=
  r.1.Rooted ∧ ∀ l, r.2 = .ok l → r.1.node? l = some .directory

theorem makes_settle (ht : t.Rooted) (hp : p.Spelled) (e : TreeError) : Makes (t.settle p e) := by
  unfold DiskTree.settle
  split
  · next l hlocate =>
    refine ⟨ht, fun l' h => ?_⟩
    cases h
    exact locate_lies ht.toSound hp hlocate
  · exact ⟨ht, fun l h => by cases h⟩
  · exact ⟨ht, fun l h => by cases h⟩

theorem makes_makeDirectoryAt (ht : t.Rooted) (hp : p.Spelled) {place : Except TreeError Place}
    (hplace : ∀ l, place = .ok (.free l) → t.node? l = none ∧ Place.Lies t (.free l)) :
    Makes (t.makeDirectoryAt p place) := by
  rcases place with e | ⟨l, n⟩ | l
  · exact makes_settle ht hp e
  · exact makes_settle ht hp _
  · obtain ⟨hnone, hlies⟩ := hplace l rfl
    refine ⟨ht.put (.inl hnone) (ht.settled_free hlies) _, fun l' h => ?_⟩
    cases h
    exact node?_put_self (Open.ne_nil (.inl hnone))

theorem makes_makeDirectoriesFrom (ht : t.Rooted) (root : Root) (reversed : List String)
    (hparts : ∀ part ∈ reversed, IsPart part) : Makes (t.makeDirectoriesFrom root reversed) := by
  have hspelled {parts : List String} (h : ∀ part ∈ parts, IsPart part) :
      (Path.mk root parts.reverse).Spelled := fun part hpart => h part (List.mem_reverse.mp hpart)
  induction reversed with
  | nil => exact makes_settle ht (hspelled hparts) _
  | cons part before ih =>
    have hbefore := ih fun q hq => hparts q (List.mem_cons_of_mem _ hq)
    rw [DiskTree.makeDirectoriesFrom]
    split
    · rcases hrun : t.makeDirectoriesFrom root before with ⟨t', e | around⟩
      · rw [hrun] at hbefore
        exact ⟨hbefore.1, fun l h => by cases h⟩
      · rw [hrun] at hbefore
        obtain ⟨ht', haround⟩ := hbefore
        apply makes_makeDirectoryAt ht' (hspelled hparts)
        intro l hl
        have hresolve := mapError_eq_ok.mp hl
        refine ⟨resolve_fits hresolve, resolve_lies ht'.toSound (haround around rfl) ?_ hresolve⟩
        intro q hq
        rw [List.mem_singleton.mp hq]
        exact (hparts part List.mem_cons_self).noSeparator
    · apply makes_makeDirectoryAt ht (hspelled hparts)
      intro l hl
      exact ⟨locate_fits hl, locate_lies ht.toSound (hspelled hparts) hl⟩

theorem Rooted.makeDirectories (ht : t.Rooted) (path : String) :
    (t.makeDirectories path).1.Rooted := by
  have hmakes := makes_makeDirectoriesFrom ht (Path.ofString path).root
    (Path.ofString path).parts.reverse
    fun part hpart => Path.spelled_ofString path part (List.mem_reverse.mp hpart)
  rw [DiskTree.makeDirectories]
  rcases hrun : t.makeDirectoriesFrom (Path.ofString path).root
      (Path.ofString path).parts.reverse with ⟨t', e | l⟩
  · rw [hrun] at hmakes
    exact hmakes.1
  · rw [hrun] at hmakes
    exact hmakes.1

theorem removeBeneath_eq (t : DiskTree) (l : Location) :
    t.removeBeneath l = t.restrict fun l' => !(l.isPrefixOf l' && l ≠ l') :=
  rfl

theorem outside_iff {other : Location} :
    (!(l.isPrefixOf other && decide (l ≠ other))) = true ↔ (l <+: other → l = other) := by
  rw [← List.isPrefixOf_iff_prefix]
  cases l.isPrefixOf other <;> simp

theorem Rooted.removeBeneath (ht : t.Rooted) (l : Location) : (t.removeBeneath l).Rooted := by
  rw [removeBeneath_eq]
  apply ht.restrict
  intro before after n _ hafter hkeep _
  rw [outside_iff] at hkeep ⊢
  intro hbegins
  have hself := hkeep (hbegins.trans (List.prefix_append _ _))
  have hlength := hbegins.length_le
  rw [hself, List.length_append] at hlength
  have hnone : after.length = 0 := by omega
  exact absurd (List.length_eq_zero_iff.mp hnone) hafter

/-- Once all beneath it is gone, a directory can go too. -/
theorem Rooted.removeNode (ht : t.Rooted) (l : Location) :
    ((t.removeBeneath l).removeNode l).Rooted := by
  apply (ht.removeBeneath l).restrict fun other => other ≠ l
  rintro before after n hnode hafter - -
  rw [decide_eq_true_eq]
  rintro rfl
  have hkeep := outside_iff.mp (List.mem_filter.mp hnode).2 (List.prefix_append _ _)
  exact hafter (List.self_eq_append_right.mp hkeep)

theorem Rooted.removeTree (ht : t.Rooted) (path : String) :
    (t.removeTree path).1.Rooted := by
  unfold DiskTree.removeTree
  split
  · next l hlocate =>
    unfold DiskTree.removeEmpty
    split
    · next l' hlocate' =>
      have hsame : l' = l := by
        rw [removeBeneath_eq] at hlocate'
        have hback := resolve_of_restrict (locate_ok hlocate').2.2
        have hthere := (locate_ok hlocate).2.2
        change resolve t .name maxLinks (startOf t.here _) _ = _ at hback
        rw [hthere] at hback
        cases hback
        rfl
      subst hsame
      exact ht.removeNode l'
    · exact ht.removeBeneath l
    · exact ht.removeBeneath l
    · exact ht.removeBeneath l
  · exact ht
  · split <;> exact ht
  · exact ht
  · exact ht

/-! ### Runs of calls -/

inductive Call where
  | writeBytes (path : String) (bytes : List UInt8)
  | makeDirectories (path : String)
  | makeLink (path target : String)
  | removeTree (path : String)

/-- The tree after a call, whether or not it succeeds. -/
def Call.perform (t : DiskTree) : Call → DiskTree
  | writeBytes path bytes => (t.writeBytes path bytes).1
  | makeDirectories path => (t.makeDirectories path).1
  | makeLink path target => (t.makeLink path target).1
  | removeTree path => (t.removeTree path).1

def run (calls : List Call) : DiskTree :=
  calls.foldl Call.perform {}

theorem rooted_new : Rooted {} where
  named h := by cases h
  around h := by cases h
  here := rfl
  start := rfl
  distinct := List.nodup_nil

theorem Rooted.perform (ht : t.Rooted) (c : Call) : (c.perform t).Rooted := by
  cases c with
  | writeBytes path bytes => exact ht.writeBytes path bytes
  | makeDirectories path => exact ht.makeDirectories path
  | makeLink path target => exact ht.makeLink path target
  | removeTree path => exact ht.removeTree path

theorem rooted_run (calls : List Call) : (run calls).Rooted := by
  induction calls using List.reverseRecOn with
  | nil => exact rooted_new
  | append_singleton calls c ih =>
    rw [run, List.foldl_append, List.foldl_cons, List.foldl_nil]
    exact ih.perform c

end JavaProfile.DiskTree
