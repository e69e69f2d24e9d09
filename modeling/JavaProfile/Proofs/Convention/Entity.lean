import Mathlib.Data.List.Count
import JavaProfile.Convention.Entity
import JavaProfile.Proofs.Greatest

/-!
The base class of entities: the first of the superclasses that most entities extend, if those are
enough, with the place of the first main file that has its name.
-/

namespace JavaProfile.Scan

variable {s : Scan} {name name' : String} {names : List String} {c c' : BaseClass}

/-! ### References -/

/-- The class that an entity extends. -/
def entityParent? (f : SourceFile) : Option String :=
  if f.category = .entity ∧ f.superclass ≠ "" then some f.superclass else none

/-- How many entities extend a class. -/
def references (s : Scan) (name : String) : ℕ :=
  s.mainFiles.countP fun f => entityParent? f = some name

/-- The place of the first main file that is an entity and extends a class. -/
def firstReference (s : Scan) (name : String) : ℕ :=
  s.mainFiles.findIdx fun f => entityParent? f = some name

theorem entitySuperclasses_eq (s : Scan) :
    s.entitySuperclasses = s.mainFiles.filterMap entityParent? := by
  rw [entitySuperclasses, entities, ofCategory]
  induction s.mainFiles with
  | nil => rfl
  | cons f files ih =>
    by_cases hentity : f.category = .entity <;> by_cases hnone : f.superclass = "" <;>
      simpa [entityParent?, hentity, hnone] using ih

theorem count_superclasses (s : Scan) (name : String) :
    s.entitySuperclasses.count name = s.references name := by
  rw [entitySuperclasses_eq, List.count_filterMap, references]
  simp only [beq_eq_decide]

theorem references_pos (h : 0 < s.references name) :
    ∃ hlt : s.firstReference name < s.mainFiles.length,
      entityParent? s.mainFiles[s.firstReference name] = some name := by
  have hlt : s.firstReference name < s.mainFiles.length :=
    List.findIdx_lt_length.mpr (List.countP_pos_iff.mp h)
  exact ⟨hlt, of_decide_eq_true (List.findIdx_getElem (w := hlt))⟩

theorem firstReference_injective (h : 0 < s.references name) (h' : 0 < s.references name')
    (heq : s.firstReference name = s.firstReference name') : name = name' := by
  obtain ⟨hlt, hname⟩ := references_pos h
  obtain ⟨hlt', hname'⟩ := references_pos h'
  simp only [heq] at hname
  exact Option.some.inj (hname.symm.trans hname')

theorem firstReference_le {front back : List SourceFile} {f : SourceFile}
    (hfiles : s.mainFiles = front ++ f :: back) (hf : entityParent? f = some name) :
    s.firstReference name ≤ front.length := by
  by_contra hlt
  have hnot := List.not_of_lt_findIdx (not_le.mp hlt)
  simp [hfiles, hf] at hnot

/-! ### The most frequent class -/

theorem mostFrequent?_eq_some (h : mostFrequent? names = some name) :
    (∀ n ∈ names, names.count n ≤ names.count name) ∧
      ∃ before after, names = before ++ name :: after ∧
        ∀ n ∈ before, names.count n < names.count name := by
  cases names with
  | nil => cases h
  | cons first rest =>
    have hname : greatestFrom (first :: rest).count first rest = name := Option.some.inj h
    rw [← hname]
    exact ⟨le_greatestFrom _ first rest, greatestFrom_split _ first rest⟩

/-- The class that most entities extend, the first of several such. -/
structure IsShared (s : Scan) (name : String) : Prop where
  referenced : 0 < s.references name
  greatest (other : String) : s.references other ≤ s.references name
  first (other : String) (h : s.references other = s.references name) :
    s.firstReference name ≤ s.firstReference other

theorem isShared_of_mostFrequent (h : mostFrequent? s.entitySuperclasses = some name) :
    s.IsShared name := by
  obtain ⟨hgreatest, before, after, hnames, hbefore⟩ := mostFrequent?_eq_some h
  simp only [count_superclasses] at hgreatest hbefore
  have hpos : 0 < s.references name := by
    rw [← count_superclasses, List.count_pos_iff, hnames]
    simp
  refine ⟨hpos, fun other => ?_, fun other hsame => ?_⟩
  · by_cases hmem : other ∈ s.entitySuperclasses
    · exact hgreatest other hmem
    · rw [← count_superclasses, List.count_eq_zero_of_not_mem hmem]
      exact Nat.zero_le _
  · -- All that is extended before `name` is extended less often.
    rw [entitySuperclasses_eq, List.filterMap_eq_append_iff] at hnames
    obtain ⟨front, rest, hfiles, rfl, hrest⟩ := hnames
    obtain ⟨skipped, f, back, rfl, hskipped, hf, -⟩ := List.filterMap_eq_cons_iff.mp hrest
    rw [← List.append_assoc] at hfiles
    apply (firstReference_le hfiles hf).trans
    by_contra hlt
    obtain ⟨hlength, hother⟩ := references_pos (hsame ▸ hpos)
    have hmem : s.mainFiles[s.firstReference other] ∈ front ++ skipped := by
      simp only [hfiles, List.getElem_append_left (not_le.mp hlt)]
      exact List.getElem_mem _
    rcases List.mem_append.mp hmem with hfront | hskip
    · exact (hbefore other (List.mem_filterMap.mpr ⟨_, hfront, hother⟩)).ne hsame
    · rw [hskipped _ hskip] at hother
      cases hother

theorem IsShared.unique (h : s.IsShared name) (h' : s.IsShared name') : name = name' := by
  have hsame := (h'.greatest name).antisymm (h.greatest name')
  apply firstReference_injective h.referenced h'.referenced
  exact (h.first name' hsame.symm).antisymm (h'.first name hsame)

/-! ### The base class -/

/-- A class is placed in the first main file that has its name. -/
structure IsFound (s : Scan) (c : BaseClass) : Prop where
  declared {before after : List SourceFile} {f : SourceFile}
    (hfiles : s.mainFiles = before ++ f :: after) (hname : f.className = c.name)
    (hbefore : ∀ g ∈ before, g.className ≠ c.name) : c.package = f.package ∧ c.path = f.path
  undeclared (h : ∀ f ∈ s.mainFiles, f.className ≠ c.name) : c.package = "" ∧ c.path = ""

def found (s : Scan) (name : String) : BaseClass :=
  match s.mainFiles.find? (·.className = name) with
  | some f => ⟨name, f.package, f.path⟩
  | none => ⟨name, "", ""⟩

theorem found_name (s : Scan) (name : String) : (s.found name).name = name := by
  rw [found]
  split <;> rfl

theorem find?_className {f : SourceFile} :
    s.mainFiles.find? (·.className = name) = some f ↔
      ∃ before after, s.mainFiles = before ++ f :: after ∧ f.className = name ∧
        ∀ g ∈ before, g.className ≠ name := by
  rw [List.find?_eq_some_iff_append]
  simp only [decide_eq_true_eq, Bool.not_eq_true', decide_eq_false_iff_not]
  constructor
  · rintro ⟨hname, before, after, hfiles, hbefore⟩
    exact ⟨before, after, hfiles, hname, hbefore⟩
  · rintro ⟨before, after, hfiles, hname, hbefore⟩
    exact ⟨hname, before, after, hfiles, hbefore⟩

theorem isFound_iff : s.IsFound c ↔ s.found c.name = c := by
  obtain ⟨name, package, path⟩ := c
  rw [found]
  cases hfind : s.mainFiles.find? (·.className = name) with
  | none =>
    have hnone : ∀ f ∈ s.mainFiles, f.className ≠ name := by simpa using hfind
    constructor
    · intro h
      obtain ⟨rfl, rfl⟩ := h.undeclared hnone
      rfl
    · rintro ⟨⟩
      refine ⟨fun hfiles hname _ => ?_, fun _ => ⟨rfl, rfl⟩⟩
      exact absurd hname (hnone _ (by simp [hfiles]))
  | some f =>
    obtain ⟨before, after, hfiles, hname, hbefore⟩ := find?_className.mp hfind
    constructor
    · intro h
      obtain ⟨rfl, rfl⟩ := h.declared hfiles hname hbefore
      rfl
    · rintro ⟨⟩
      constructor
      · intro before' after' f' hfiles' hname' hbefore'
        have hfind' := find?_className.mpr ⟨before', after', hfiles', hname', hbefore'⟩
        obtain rfl := Option.some.inj (hfind.symm.trans hfind')
        exact ⟨rfl, rfl⟩
      · exact fun hnone => absurd hname (hnone f (by simp [hfiles]))

/-- Two references are enough, and one in a small project. -/
def Enough (s : Scan) (name : String) : Prop :=
  2 ≤ s.references name ∨ s.references name = 1 ∧ s.entities.length ≤ 3

theorem Enough.pos (h : s.Enough name) : 0 < s.references name := by
  rw [Enough] at h
  omega

theorem enough_of_shared (hshared : s.IsShared name) (h : s.Enough name') : s.Enough name := by
  have hle := hshared.greatest name'
  rw [Enough] at h ⊢
  omega

theorem exists_mostFrequent (h : 0 < s.references name) :
    ∃ most, mostFrequent? s.entitySuperclasses = some most := by
  rw [← count_superclasses, List.count_pos_iff] at h
  obtain ⟨first, rest, heq⟩ := List.exists_cons_of_ne_nil (List.ne_nil_of_mem h)
  exact ⟨_, by rw [heq]; rfl⟩

theorem baseEntity?_of_mostFrequent (h : mostFrequent? s.entitySuperclasses = some name) :
    s.baseEntity? = if 2 ≤ s.references name ∨ s.entities.length ≤ 3 then some (s.found name)
      else none := by
  rw [baseEntity?, h, Option.bind_eq_bind, Option.bind_some, count_superclasses, smallEntitySet,
    found]
  congr 1
  cases s.mainFiles.find? (·.className = name) <;> rfl

theorem baseEntity?_of_shared (hshared : s.IsShared name) (henough : s.Enough name) :
    s.baseEntity? = some (s.found name) := by
  obtain ⟨most, hmost⟩ := exists_mostFrequent hshared.referenced
  obtain rfl := (isShared_of_mostFrequent hmost).unique hshared
  rw [baseEntity?_of_mostFrequent hmost, if_pos]
  rw [Enough] at henough
  omega

theorem shared_of_baseEntity? (h : s.baseEntity? = some c) :
    s.IsShared c.name ∧ s.Enough c.name ∧ s.found c.name = c := by
  cases hmost : mostFrequent? s.entitySuperclasses with
  | none =>
    rw [baseEntity?, hmost] at h
    cases h
  | some name =>
    have hshared := isShared_of_mostFrequent hmost
    rw [baseEntity?_of_mostFrequent hmost] at h
    split at h
    · next hmany =>
      obtain rfl := Option.some.inj h
      have hname := s.found_name name
      have hpos := hshared.referenced
      rw [hname]
      exact ⟨hshared, by rw [Enough]; omega, rfl⟩
    · cases h

/-- There is a base class if some class is extended by two entities, or by one where there are three
entities at most. It is the first of the classes that most entities extend, found in the first main
file that has its name. -/
theorem baseEntity_iff (s : Scan) :
    ((∃ c, s.baseEntity? = some c) ↔ ∃ name, s.Enough name) ∧
      ∀ c, s.baseEntity? = some c ↔ s.IsShared c.name ∧ s.Enough c.name ∧ s.IsFound c := by
  constructor
  · constructor
    · rintro ⟨c, hc⟩
      exact ⟨c.name, (shared_of_baseEntity? hc).2.1⟩
    · rintro ⟨name, henough⟩
      obtain ⟨most, hmost⟩ := exists_mostFrequent henough.pos
      have hshared := isShared_of_mostFrequent hmost
      exact ⟨_, baseEntity?_of_shared hshared (enough_of_shared hshared henough)⟩
  · intro c
    rw [isFound_iff]
    constructor
    · exact shared_of_baseEntity?
    · rintro ⟨hshared, henough, hfound⟩
      rw [baseEntity?_of_shared hshared henough, hfound]

end JavaProfile.Scan
