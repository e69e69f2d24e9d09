import JavaProfile.Proofs.Tree.Lawful
import JavaProfile.Proofs.Tree.Names

/-!
Disks obey the laws of trees. A file that is put where no directory is changes no way through the
tree, so every path still leads where it led before.
-/

namespace JavaProfile.DiskTree

/-! ### Nodes -/

variable {t : DiskTree} {l other : Location} {n : Node}

theorem node?_put_self (hl : l ≠ []) : (t.put l n).node? l = some n := by
  rw [node?, if_neg hl, put, List.lookup_cons, beq_self_eq_true]

theorem node?_put_other (hne : other ≠ l) : (t.put l n).node? other = t.node? other := by
  unfold node?
  split
  · rfl
  · rw [put, List.lookup_cons, beq_eq_false_iff_ne.mpr hne]
    exact (lookup_filter (fun other => other ≠ l) other _).trans (if_pos (by simpa using hne))

/-- No directory and no link is at a location, so no way goes through it. -/
def Open (t : DiskTree) (l : Location) : Prop :=
  t.node? l = none ∨ ∃ bytes, t.node? l = some (.file bytes)

theorem Open.ne_nil (h : t.Open l) : l ≠ [] := by
  rintro rfl
  rcases h with h | ⟨bytes, h⟩ <;> cases h

theorem Open.ne_of_node (h : t.Open l) (hnode : t.node? other = some n)
    (hn : ∀ bytes, n ≠ .file bytes) : other ≠ l := by
  rintro rfl
  rcases h with hnone | ⟨bytes, hfile⟩
  · rw [hnode] at hnone
    cases hnone
  · rw [hnode] at hfile
    exact hn bytes (Option.some.inj hfile)

/-! ### Ways -/

/-- Where a way ends once a node has been put at a location. -/
def Place.withNode (l : Location) (n : Node) : Place → Place
  | .free l' => if l' = l then .taken l n else .free l'
  | .taken l' (.file old) => if l' = l then .taken l n else .taken l' (.file old)
  | place => place

variable {aim : Aim} {links : ℕ} {here : Location} {parts : List String} {place : Place}

/-- A part that names something in the directory where it is met. -/
structure Enters (aim : Aim) (part : String) (rest : List String) : Prop where
  up : part ≠ ".."
  stay : ¬ (part = "." ∨ part = "")
  file : ¬ (aim = .file ∧ rest = [""])
  short : ¬ maxNameBytes < part.utf8ByteSize

/-- The ways that come to an end, part by part. -/
inductive Leads (t : DiskTree) (aim : Aim) : ℕ → Location → List String → Place → Prop where
  | done {links : ℕ} {here : Location} : Leads t aim links here [] (.taken here .directory)
  | up {links : ℕ} {here : Location} {rest : List String} {place : Place}
      (h : Leads t aim links here.dropLast rest place) : Leads t aim links here (".." :: rest) place
  | stay {links : ℕ} {here : Location} {part : String} {rest : List String} {place : Place}
      (hstay : part = "." ∨ part = "") (h : Leads t aim links here rest place) :
      Leads t aim links here (part :: rest) place
  | free {links : ℕ} {here : Location} {part : String} (henters : Enters aim part [])
      (hnode : t.node? (here ++ [part]) = none) :
      Leads t aim links here [part] (.free (here ++ [part]))
  | directory {links : ℕ} {here : Location} {part : String} {rest : List String} {place : Place}
      (henters : Enters aim part rest) (hnode : t.node? (here ++ [part]) = some .directory)
      (h : Leads t aim links (here ++ [part]) rest place) :
      Leads t aim links here (part :: rest) place
  | file {links : ℕ} {here : Location} {part : String} {bytes : List UInt8}
      (henters : Enters aim part []) (hnode : t.node? (here ++ [part]) = some (.file bytes)) :
      Leads t aim links here [part] (.taken (here ++ [part]) (.file bytes))
  | link {links : ℕ} {here : Location} {part target : String} (haim : aim = .name)
      (henters : Enters aim part []) (hnode : t.node? (here ++ [part]) = some (.link target)) :
      Leads t aim links here [part] (.taken (here ++ [part]) (.link target))
  | follow {links : ℕ} {here : Location} {part target : String} {rest : List String} {place : Place}
      (henters : Enters aim part rest) (hnode : t.node? (here ++ [part]) = some (.link target))
      (hname : ¬ (rest = [] ∧ aim = .name))
      (h : Leads t aim links (startOf here (Path.rootOf target.toList)) (targetParts target ++ rest)
        place) : Leads t aim (links + 1) here (part :: rest) place

theorem resolve_stay {part : String} {rest : List String} (h : part = "." ∨ part = "") :
    resolve t aim links here (part :: rest) = resolve t aim links here rest := by
  have hup : part ≠ ".." := by rcases h with rfl | rfl <;> decide
  rw [resolve, if_neg hup, if_pos h]

section Enters

variable {part : String} {rest : List String}

theorem enters_of_isName (h : IsName part) (hfile : ¬ (aim = .file ∧ rest = [""]))
    (hshort : part.utf8ByteSize ≤ maxNameBytes) : Enters aim part rest :=
  ⟨h.ne_up, not_or.mpr ⟨h.ne_here, h.ne_empty⟩, hfile, Nat.not_lt.mpr hshort⟩

theorem Enters.target (h : Enters aim part rest) : Enters .target part rest :=
  ⟨h.up, h.stay, fun hfile => absurd hfile.1 (by decide), h.short⟩

theorem resolve_missing (h : Enters aim part rest) (hnode : t.node? (here ++ [part]) = none) :
    resolve t aim links here (part :: rest) =
      if rest = [] then .ok (.free (here ++ [part])) else .error .noEntry := by
  rw [resolve, if_neg h.up, if_neg h.stay, if_neg h.file, if_neg h.short, hnode]

theorem resolve_file {bytes : List UInt8} (h : Enters aim part rest)
    (hnode : t.node? (here ++ [part]) = some (.file bytes)) :
    resolve t aim links here (part :: rest) =
      if rest = [] then .ok (.taken (here ++ [part]) (.file bytes)) else .error .notDirectory := by
  rw [resolve, if_neg h.up, if_neg h.stay, if_neg h.file, if_neg h.short, hnode]

theorem resolve_enter (h : Enters aim part rest)
    (hnode : t.node? (here ++ [part]) = some .directory) :
    resolve t aim links here (part :: rest) = resolve t aim links (here ++ [part]) rest := by
  rw [resolve, if_neg h.up, if_neg h.stay, if_neg h.file, if_neg h.short, hnode]

theorem resolve_follow {target : String} (h : Enters aim part rest)
    (hnode : t.node? (here ++ [part]) = some (.link target)) (hname : ¬ (rest = [] ∧ aim = .name)) :
    resolve t aim (links + 1) here (part :: rest) =
      resolve t aim links (startOf here (Path.rootOf target.toList)) (targetParts target ++ rest) := by
  rw [resolve, if_neg h.up, if_neg h.stay, if_neg h.file, if_neg h.short, hnode]
  exact if_neg hname

end Enters

theorem resolve_of_leads (h : Leads t aim links here parts place) :
    resolve t aim links here parts = .ok place := by
  induction h with
  | done => rw [resolve]
  | up _ ih => rw [resolve, if_pos rfl, ih]
  | stay hstay _ ih => rw [resolve_stay hstay, ih]
  | free henters hnode => rw [resolve_missing henters hnode, if_pos rfl]
  | directory henters hnode _ ih => rw [resolve_enter henters hnode, ih]
  | file henters hnode => rw [resolve_file henters hnode, if_pos rfl]
  | link haim henters hnode =>
    rw [resolve, if_neg henters.up, if_neg henters.stay, if_neg henters.file, if_neg henters.short,
      hnode]
    exact if_pos ⟨rfl, haim⟩
  | follow henters hnode hname _ ih => rw [resolve_follow henters hnode hname, ih]

theorem leads_of_resolve (h : resolve t aim links here parts = .ok place) :
    Leads t aim links here parts place := by
  fun_induction resolve t aim links here parts with
  | case1 =>
    cases h
    exact .done
  | case2 links here rest ih => exact .up (ih h)
  | case3 links here part rest hup hstay ih => exact .stay hstay (ih h)
  | case4 => cases h
  | case5 => cases h
  | case6 links here part hup hstay hlong hnode hfile =>
    cases h
    exact .free ⟨hup, hstay, hfile, hlong⟩ hnode
  | case7 => cases h
  | case8 links here part rest hup hstay hfile hlong hnode ih =>
    exact .directory ⟨hup, hstay, hfile, hlong⟩ hnode (ih h)
  | case9 links here part hup hstay hlong old hnode hfile =>
    cases h
    exact .file ⟨hup, hstay, hfile, hlong⟩ hnode
  | case10 => cases h
  | case11 links here part rest hup hstay hfile hlong target hnode hname =>
    cases h
    obtain ⟨rfl, haim⟩ := hname
    exact .link haim ⟨hup, hstay, hfile, hlong⟩ hnode
  | case12 => cases h
  | case13 here part rest hup hstay hfile hlong target hnode hname links ih =>
    exact .follow ⟨hup, hstay, hfile, hlong⟩ hnode hname (ih h)

theorem resolve_iff :
    resolve t aim links here parts = .ok place ↔ Leads t aim links here parts place :=
  ⟨leads_of_resolve, resolve_of_leads⟩

theorem Leads.put_last {part : String} (henters : Enters aim part [])
    (hn : ∀ target, n ≠ .link target) :
    Leads (t.put (here ++ [part]) n) aim links here [part] (.taken (here ++ [part]) n) := by
  have hnode : (t.put (here ++ [part]) n).node? (here ++ [part]) = some n :=
    node?_put_self (by simp)
  cases n with
  | directory => exact .directory henters hnode .done
  | file bytes => exact .file henters hnode
  | link target => exact absurd rfl (hn target)

theorem resolve_put (hopen : t.Open l) (hn : ∀ target, n ≠ .link target)
    (h : resolve t .target links here parts = .ok place) :
    resolve (t.put l n) .target links here parts = .ok (place.withNode l n) := by
  rw [resolve_iff] at h ⊢
  induction h with
  | done => exact .done
  | up _ ih => exact .up ih
  | stay hstay _ ih => exact .stay hstay ih
  | @free _ here part henters hnode =>
    -- What is put may stand where the way ends, and nowhere else on it.
    rw [Place.withNode]
    by_cases heq : here ++ [part] = l
    · rw [if_pos heq, ← heq]
      exact .put_last henters hn
    · rw [if_neg heq]
      exact .free henters (by rwa [node?_put_other heq])
  | directory henters hnode _ ih =>
    have hne := hopen.ne_of_node hnode fun bytes h => by cases h
    exact .directory henters (by rwa [node?_put_other hne]) ih
  | @file _ here part old henters hnode =>
    rw [Place.withNode]
    by_cases heq : here ++ [part] = l
    · rw [if_pos heq, ← heq]
      exact .put_last henters hn
    · rw [if_neg heq]
      exact .file henters (by rwa [node?_put_other heq])
  | link haim => cases haim
  | follow henters hnode hname _ ih =>
    have hne := hopen.ne_of_node hnode fun bytes h => by cases h
    exact .follow henters (by rwa [node?_put_other hne]) hname ih

/-- Where a file can be written is where the path leads to. -/
theorem resolve_target_of_file (h : resolve t .file links here parts = .ok place) :
    resolve t .target links here parts = .ok place := by
  rw [resolve_iff] at h ⊢
  induction h with
  | done => exact .done
  | up _ ih => exact .up ih
  | stay hstay _ ih => exact .stay hstay ih
  | free henters hnode => exact .free henters.target hnode
  | directory henters hnode _ ih => exact .directory henters.target hnode ih
  | file henters hnode => exact .file henters.target hnode
  | link haim => cases haim
  | follow henters hnode _ _ ih => exact .follow henters.target hnode (by simp) ih

theorem resolve_append {rest : List String} (haim : aim ≠ .file) (hrest : aim = .name → rest ≠ [])
    (h : resolve t .target links here parts = .ok (.taken l .directory)) :
    ∃ left, resolve t aim links here (parts ++ rest) = resolve t aim left l rest := by
  have henters {part : String} {parts : List String} (h : Enters .target part parts) :
      Enters aim part (parts ++ rest) := ⟨h.up, h.stay, fun hfile => haim hfile.1, h.short⟩
  rw [resolve_iff] at h
  generalize hplace : Place.taken l .directory = place at h
  induction h with
  | done =>
    cases hplace
    exact ⟨_, rfl⟩
  | up _ ih =>
    rw [List.cons_append, resolve, if_pos rfl]
    exact ih hplace
  | stay hstay _ ih =>
    rw [List.cons_append, resolve_stay hstay]
    exact ih hplace
  | free | file | link => cases hplace
  | directory hpart hnode _ ih =>
    rw [List.cons_append, resolve_enter (henters hpart) hnode]
    exact ih hplace
  | @follow _ _ _ _ parts _ hpart hnode _ _ ih =>
    have hlast : ¬ (parts ++ rest = [] ∧ aim = .name) :=
      fun h => hrest h.2 (List.append_eq_nil_iff.mp h.1).2
    rw [List.cons_append, resolve_follow (henters hpart) hnode hlast, ← List.append_assoc]
    exact ih hplace

/-- A way leads to a node in another tree too that holds the nodes on the way, of which only the last
one can be a file. -/
theorem resolve_of_nodes {t' : DiskTree}
    (hnodes : ∀ found m, t'.node? found = some m → (∀ bytes, m = .file bytes → found = l) →
      t.node? found = some m)
    (h : resolve t' aim links here parts = .ok (.taken l n)) :
    resolve t aim links here parts = .ok (.taken l n) := by
  rw [resolve_iff] at h ⊢
  generalize hplace : Place.taken l n = place at h ⊢
  induction h with
  | done => exact .done
  | up _ ih => exact .up (ih hplace)
  | stay hstay _ ih => exact .stay hstay (ih hplace)
  | free => cases hplace
  | directory henters hnode _ ih =>
    exact .directory henters (hnodes _ _ hnode fun bytes h => by cases h) (ih hplace)
  | file henters hnode =>
    cases hplace
    exact .file henters (hnodes _ _ hnode fun _ _ => rfl)
  | link haim henters hnode =>
    cases hplace
    exact .link haim henters (hnodes _ _ hnode fun _ _ => rfl)
  | follow henters hnode hname _ ih =>
    exact .follow henters (hnodes _ _ hnode fun bytes h => by cases h) hname (ih hplace)

/-- What a tree holds where a way ends. -/
def Place.Fits (t : DiskTree) : Place → Prop
  | .free l => t.node? l = none
  | .taken l (.file bytes) => t.node? l = some (.file bytes)
  | _ => True

theorem resolve_fits (h : resolve t aim links here parts = .ok place) : place.Fits t := by
  rw [resolve_iff] at h
  induction h with
  | done | link => trivial
  | up _ ih | stay _ _ ih | directory _ _ _ ih | follow _ _ _ _ ih => exact ih
  | free _ hnode | file _ hnode => exact hnode

theorem mapError_eq_ok {ε ε' α : Type} {f : ε → ε'} {x : Except ε α} {a : α} :
    x.mapError f = .ok a ↔ x = .ok a := by
  cases x <;> simp [Except.mapError]

theorem mapError_eq_error {ε ε' α : Type} {f : ε → ε'} {x : Except ε α} {e : ε'} :
    x.mapError f = .error e ↔ ∃ cause, x = .error cause ∧ f cause = e := by
  cases x <;> simp [Except.mapError]

theorem noNul {p : Path} (h : '\x00' ∉ p.text.toList) : p.text.contains '\x00' = false := by
  rw [String.contains_char_eq]
  exact decide_eq_false h

theorem locate_ok {aim : Aim} {p : Path} (h : t.locate aim p = .ok place) :
    p.text.contains '\x00' = false ∧ ¬ maxPathBytes ≤ p.text.utf8ByteSize ∧
      resolve t aim maxLinks (startOf t.here p.root) p.parts = .ok place := by
  unfold locate at h
  split at h
  · cases h
  · next hnul =>
    split at h
    · cases h
    · next hlong =>
      exact ⟨by simpa using hnul, hlong, mapError_eq_ok.mp h⟩

theorem locate_of_resolve {aim : Aim} {p : Path} (hnul : p.text.contains '\x00' = false)
    (hlong : ¬ maxPathBytes ≤ p.text.utf8ByteSize)
    (h : resolve t aim maxLinks (startOf t.here p.root) p.parts = .ok place) :
    t.locate aim p = .ok place := by
  rw [locate, hnul, if_neg (by decide), if_neg hlong, h]
  rfl

theorem locate_put {p : Path} (hopen : t.Open l) (hn : ∀ target, n ≠ .link target)
    (h : t.locate .target p = .ok place) :
    (t.put l n).locate .target p = .ok (place.withNode l n) := by
  obtain ⟨hnul, hlong, hresolve⟩ := locate_ok h
  exact locate_of_resolve hnul hlong (resolve_put hopen hn hresolve)

theorem locate_fits {p : Path} (h : t.locate aim p = .ok place) : place.Fits t :=
  resolve_fits (locate_ok h).2.2

theorem locate_target_of_file {p : Path} (h : t.locate .file p = .ok place) :
    t.locate .target p = .ok place := by
  obtain ⟨hnul, hlong, hresolve⟩ := locate_ok h
  exact locate_of_resolve hnul hlong (resolve_target_of_file hresolve)

/-! ### Files -/

/-- The location of the node, or of the free name, that a path leads to. -/
def location? (t : DiskTree) (p : Path) : Option Location :=
  match t.locate .target p with
  | .ok (.taken l _) => some l
  | .ok (.free l) => some l
  | .error _ => none

theorem location?_put {p : Path} (hopen : t.Open l) (hn : ∀ target, n ≠ .link target)
    (h : t.location? p = some other) : (t.put l n).location? p = some other := by
  unfold location? at h ⊢
  cases hlocate : t.locate .target p with
  | error e =>
    rw [hlocate] at h
    cases h
  | ok place =>
    rw [hlocate] at h
    rw [locate_put hopen hn hlocate]
    cases place with
    | free l' =>
      rw [Place.withNode]
      by_cases heq : l' = l
      · rw [if_pos heq, ← heq]
        exact h
      · rw [if_neg heq]
        exact h
    | taken l' m =>
      cases m with
      | file old =>
        rw [Place.withNode]
        by_cases heq : l' = l
        · rw [if_pos heq, ← heq]
          exact h
        · rw [if_neg heq]
          exact h
      | link target => exact h
      | directory => exact h

theorem read_ok {p : Path} {data : String} (h : t.read p = .ok data) :
    ∃ l bytes, t.locate .target p = .ok (.taken l (.file bytes)) ∧
      data = String.ofList (Text.unifyBreaks (Text.decode bytes)) := by
  unfold read at h
  split at h
  · next l bytes hlocate =>
    cases h
    exact ⟨l, bytes, hlocate, rfl⟩
  all_goals cases h

theorem read_put_of_ne {p : Path} {data : String} (hopen : t.Open l)
    (hn : ∀ target, n ≠ .link target) (h : t.read p = .ok data) (hne : t.location? p ≠ some l) :
    (t.put l n).read p = .ok data := by
  obtain ⟨l', bytes, hlocate, rfl⟩ := read_ok h
  have hother : l' ≠ l := by
    rintro rfl
    exact hne (by rw [location?, hlocate])
  rw [read, locate_put hopen hn hlocate, Place.withNode, if_neg hother]

theorem writeBytes_ok {t' : DiskTree} {p : Path} {bytes : List UInt8}
    (h : t.writeBytes p bytes = (t', .ok ())) :
    ∃ l, t.Open l ∧ t.location? p = some l ∧ t' = t.put l (.file bytes) ∧
      t'.locate .target p = .ok (.taken l (.file bytes)) := by
  have hn : ∀ target, Node.file bytes ≠ .link target := fun target h => by cases h
  unfold writeBytes at h
  split at h
  · next l old hlocate =>
    cases h
    have htarget := locate_target_of_file hlocate
    have hopen : t.Open l := .inr ⟨old, locate_fits htarget⟩
    refine ⟨l, hopen, by rw [location?, htarget], rfl, ?_⟩
    rw [locate_put hopen hn htarget, Place.withNode, if_pos rfl]
  · cases h
  · next l hlocate =>
    cases h
    have htarget := locate_target_of_file hlocate
    have hopen : t.Open l := .inl (locate_fits htarget)
    refine ⟨l, hopen, by rw [location?, htarget], rfl, ?_⟩
    rw [locate_put hopen hn htarget, Place.withNode, if_pos rfl]
  · cases h

theorem writeBytes_error {t' : DiskTree} {p : Path} {bytes : List UInt8} {e : TreeError}
    (h : t.writeBytes p bytes = (t', .error e)) : t' = t := by
  unfold writeBytes at h
  split at h <;> cases h <;> rfl

/-! ### Directories -/

/-- Nothing that could be found in a tree is found elsewhere in another. -/
structure Extends (t t' : DiskTree) : Prop where
  read {p : Path} {data : String} : t.read p = .ok data → t'.read p = .ok data
  location? {p : Path} {l : Location} : t.location? p = some l → t'.location? p = some l

namespace Extends

variable {t' t'' : DiskTree}

theorem refl (t : DiskTree) : t.Extends t :=
  ⟨id, id⟩

theorem trans (h : t.Extends t') (h' : t'.Extends t'') : t.Extends t'' :=
  ⟨fun hread => h'.read (h.read hread), fun hplace => h'.location? (h.location? hplace)⟩

theorem put_directory (hfree : t.node? l = none) : t.Extends (t.put l .directory) where
  read {p data} h := by
    have hn : ∀ target, Node.directory ≠ .link target := fun target h => by cases h
    apply read_put_of_ne (.inl hfree) hn h
    obtain ⟨l', bytes, hlocate, -⟩ := read_ok h
    have hnode : t.node? l' = some (.file bytes) := locate_fits hlocate
    rw [DiskTree.location?, hlocate]
    intro heq
    obtain rfl := Option.some.inj heq
    rw [hfree] at hnode
    cases hnode
  location? := location?_put (.inl hfree) fun target h => by cases h

theorem settle (t : DiskTree) (p : Path) (e : TreeError) : t.Extends (t.settle p e).1 := by
  have htree : (t.settle p e).1 = t := by
    unfold DiskTree.settle
    split <;> rfl
  rw [htree]
  exact refl t

theorem makeDirectoryAt (t : DiskTree) (p : Path) {place : Except TreeError Place}
    (h : ∀ l, place = .ok (.free l) → t.node? l = none) :
    t.Extends (t.makeDirectoryAt p place).1 := by
  rcases place with e | ⟨l, n⟩ | l
  · exact settle t p e
  · exact settle t p _
  · exact put_directory (h l rfl)

theorem makeDirectoriesFrom (t : DiskTree) (root : Root) (reversed : List String) :
    t.Extends (t.makeDirectoriesFrom root reversed).1 := by
  induction reversed with
  | nil => exact settle t _ _
  | cons part before ih =>
    rw [DiskTree.makeDirectoriesFrom]
    split
    · rcases hbefore : t.makeDirectoriesFrom root before with ⟨t', e | around⟩
      · rw [hbefore] at ih
        exact ih
      · rw [hbefore] at ih
        exact ih.trans (makeDirectoryAt t' _ fun l hl => resolve_fits (mapError_eq_ok.mp hl))
    · exact makeDirectoryAt t _ fun l hl => locate_fits hl

theorem makeDirectories (t : DiskTree) (p : Path) : t.Extends (t.makeDirectories p).1 := by
  have h := makeDirectoriesFrom t p.root p.parts.reverse
  rw [DiskTree.makeDirectories]
  rcases hrun : t.makeDirectoriesFrom p.root p.parts.reverse with ⟨t', e | l⟩
  · rw [hrun] at h
    exact h
  · rw [hrun] at h
    exact h

end Extends

instance : LawfulTree DiskTree where
  Place := Location
  place? t p := t.location? p
  place?_of_read {t p data} h := by
    obtain ⟨l, bytes, hlocate, -⟩ := read_ok h
    exact ⟨l, by rw [location?, hlocate]⟩
  contains_of_read {t p data} h := by
    obtain ⟨l, bytes, hlocate, -⟩ := read_ok h
    change (t.find? p).map Option.isSome = .ok true
    rw [find?, hlocate]
    rfl
  read_write {t t' now p data} hdata h := by
    obtain ⟨l, -, -, -, hlocate⟩ := writeBytes_ok h
    change t'.read p = .ok data
    rw [read, hlocate]
    dsimp only
    rw [Text.decode_encode, Text.unifyBreaks_of_notMem hdata, String.ofList_toList]
  read_write_apart {t p q data} h hapart now new := by
    change (t.writeBytes p (Text.encode new)).1.read q = .ok data
    rcases hwrite : t.writeBytes p (Text.encode new) with ⟨t', e | ⟨⟩⟩
    · rw [writeBytes_error hwrite]
      exact h
    · obtain ⟨l, hopen, hplace, rfl, -⟩ := writeBytes_ok hwrite
      exact read_put_of_ne hopen (fun target h => by cases h) h fun hq =>
        hapart (hplace.trans hq.symm)
  place?_write {t q l} h now p new := by
    change (t.writeBytes p (Text.encode new)).1.location? q = some l
    rcases hwrite : t.writeBytes p (Text.encode new) with ⟨t', e | ⟨⟩⟩
    · rw [writeBytes_error hwrite]
      exact h
    · obtain ⟨lp, hopen, -, rfl, -⟩ := writeBytes_ok hwrite
      exact location?_put hopen (fun target h => by cases h) h
  read_makeDirectories h p := (Extends.makeDirectories _ p).read h
  place?_makeDirectories h p := (Extends.makeDirectories _ p).location? h

end JavaProfile.DiskTree
