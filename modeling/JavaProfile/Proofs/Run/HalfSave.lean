import JavaProfile.Proofs.Store.Plain

/-!
Runs of saves that may fail half-way. A profile and a checksum that are valid together need not be
of one save: where the checksum could not be written, that of an earlier save stays beside the new
profile, and the sources may be again what they were then.
-/

namespace JavaProfile

namespace Cache

open Work

variable {τ : Type} [FileTree τ]

/-- A call to save a profile. -/
structure Save (τ : Type) where
  before : Session τ
  profile : Profile

namespace Save

variable (c : Cache) (a : Save τ)

def after : Session τ :=
  (runs (c.save a.profile) a.before).2

def document : String :=
  (a.profile.stamped a.before.now).document

def opened : τ :=
  (FileTree.makeDirectories a.before.tree c.directory.text).1

def written : τ :=
  c.stored a.before.tree a.before.clock a.document

/-- Whether the document gets written. -/
def stores : Bool :=
  (FileTree.makeDirectories a.before.tree c.directory.text).2.isOk &&
    (FileTree.write (a.opened c) a.before.clock c.profilePath.text a.document).2.isOk

/-- The checksum that gets written beside the document. -/
def checksum? : Option String :=
  if a.stores c then
    match c.project.checksum (a.written c) with
    | .ok k =>
      if (FileTree.write (a.written c) a.before.clock c.checksumPath.text k).2.isOk then some k
      else none
    | .error _ => none
  else none

end Save

/-- The last save that wrote its document, where the last one comes first. -/
def lastStored (c : Cache) (saves : List (Save τ)) : Option (Save τ) :=
  saves.find? (Save.stores c)

/-- The last save that wrote its checksum, with that. -/
def lastSealed (c : Cache) (saves : List (Save τ)) : Option (Save τ × String) :=
  saves.findSome? fun a => (a.checksum? c).map fun k => (a, k)

/-- Making the directory of the cache makes no file appear in it. -/
structure Inert (c : Cache) (t : τ) : Prop where
  profile {data : String}
    (h : FileTree.read (FileTree.makeDirectories t c.directory.text).1 c.profilePath.text =
      .ok data) : FileTree.read t c.profilePath.text = .ok data
  checksum {data : String}
    (h : FileTree.read (FileTree.makeDirectories t c.directory.text).1 c.checksumPath.text =
      .ok data) : FileTree.read t c.checksumPath.text = .ok data

/-- What can be read of the cache in another tree can be read in this one. -/
structure Covers (c : Cache) (t t' : τ) : Prop where
  profile {data : String} (h : FileTree.read t' c.profilePath.text = .ok data) :
    FileTree.read t c.profilePath.text = .ok data
  checksum {data : String} (h : FileTree.read t' c.checksumPath.text = .ok data) :
    FileTree.read t c.checksumPath.text = .ok data

/-- What may happen from a session on, with the saves that were tried, the last one first. Any step
of a save may fail. -/
inductive Saves (c : Cache) (M : τ → Prop) (s : Session τ) : List (Save τ) → Session τ → Prop where
  | start (hmoment : M s.tree) : Saves c M s [] s
  | save {saves : List (Save τ)} {s' : Session τ} (p : Profile) (hsaves : Saves c M s saves s')
      (hmoment : M (Save.after c ⟨s', p⟩).tree) :
      Saves c M s (⟨s', p⟩ :: saves) (Save.after c ⟨s', p⟩)
  /-- Any other tree with the same cache; it may also refuse other calls. -/
  | edit {saves : List (Save τ)} {s' : Session τ} (t : τ) (hsaves : Saves c M s saves s')
      (hcache : c.SameCache s'.tree t) (hmoment : M t) : Saves c M s saves { s' with tree := t }
  | clock {saves : List (Save τ)} {s' : Session τ} (x : Float) (hsaves : Saves c M s saves s') :
      Saves c M s saves { s' with clock := x }

/-- Where the files of a cache come from: the document from the last save that wrote one, and the
checksum from the last one that wrote one. Where both are one file, it is no use as the other. -/
structure Traced (c : Cache) (saves : List (Save τ)) (t : τ) : Prop where
  profile {data : String} (h : FileTree.read t c.profilePath.text = .ok data) :
    (∃ j, c.lastStored saves = some j ∧ Text.ReadsAs j.document data) ∨
      ∃ message, data = Sha256.digest message
  checksum {data : String} (h : FileTree.read t c.checksumPath.text = .ok data) :
    (∃ i, c.lastSealed saves = some (i, data)) ∨
      ∀ message, String.ofList (Text.trim data.toList) ≠ Sha256.digest message

variable {c : Cache} {M : τ → Prop} {saves : List (Save τ)} {s s' : Session τ} {t : τ}

theorem Covers.of_eq {t' : τ} (h : t' = t) : c.Covers t t' := by
  rw [h]
  exact ⟨id, id⟩

theorem SameCache.covers {t' : τ} (h : c.SameCache t t') : c.Covers t t' :=
  ⟨h.profile.symm.trans, h.checksum.symm.trans⟩

/-! ### One save -/

theorem isOk_iff {ε : Type} {r : Except ε Unit} : r.isOk = true ↔ r = .ok () := by
  cases r with
  | ok u => exact ⟨fun _ => rfl, fun _ => rfl⟩
  | error e =>
    constructor
    · intro h
      cases h
    · intro h
      cases h

theorem makeDirectory_ok_iff :
    (runs c.makeDirectory s).1 = .ok () ↔
      (FileTree.makeDirectories s.tree c.directory.text).2 = .ok () := by
  rw [makeDirectory, runs_bind, runs_change]
  dsimp only
  cases (FileTree.makeDirectories s.tree c.directory.text).2 with
  | ok u => exact ⟨fun _ => rfl, fun _ => rfl⟩
  | error e =>
    constructor
    · intro h
      cases h
    · intro h
      cases h

theorem writeProfile_ok_iff {p : Profile} :
    (runs (c.writeProfile p) s).1 = .ok () ↔
      (FileTree.write s.tree s.clock c.profilePath.text p.document).2 = .ok () := by
  refine ⟨c.writeProfile_ok p s, fun h => ?_⟩
  rw [writeProfile, runs_bind, runs_change]
  dsimp only
  rw [h]
  rfl

theorem sealSources_of_error {e : Failure} (h : c.project.checksum s.tree = .error e) :
    (runs c.sealSources s).2.tree = s.tree := by
  rcases c.sealSources_tree s with htree | ⟨k, hk, -⟩
  · exact htree
  · rw [h] at hk
    cases hk

theorem sealSources_of_ok {k : String} (h : c.project.checksum s.tree = .ok k) :
    (runs c.sealSources s).2.tree =
      (FileTree.write s.tree s.clock c.checksumPath.text k).1 := by
  rw [sealSources, runs_bind, runs_get]
  dsimp only
  rw [h]
  exact c.writeChecksum_tree s k

namespace Save

variable {a : Save τ}

theorem stores_iff : a.stores c = true ↔ c.Stores a.profile a.before := by
  rw [stores, Bool.and_eq_true, isOk_iff, isOk_iff, Stores, makeDirectory_ok_iff,
    writeProfile_ok_iff, makeDirectory_state]
  rfl

/-- A save that does not come to write its document fails before, or as it tries to. -/
theorem after_of_unstored (h : a.stores c = false) :
    (a.after c).tree = a.opened c ∨
      (∃ e, (FileTree.write (a.opened c) a.before.clock c.profilePath.text a.document).2 =
        .error e) ∧ (a.after c).tree = a.written c := by
  have hopened : (runs c.makeDirectory a.before).2 = { a.before with tree := a.opened c } :=
    c.makeDirectory_state a.before
  have hwritten : (runs (c.writeProfile (a.profile.stamped a.before.now))
      { a.before with tree := a.opened c }).2 = { a.before with tree := a.written c } :=
    c.writeProfile_state _ _
  rcases c.save_cases a.profile a.before with ⟨e, -, hrun⟩ | ⟨e, s₂, herror, hrun⟩ |
    ⟨s₂, hstores, -, -⟩
  · left
    rw [after, hrun, hopened]
  · right
    rw [hopened] at herror
    refine ⟨?_, ?_⟩
    · cases hresult : (FileTree.write (a.opened c) a.before.clock c.profilePath.text
          a.document).2 with
      | error e => exact ⟨e, rfl⟩
      | ok u =>
        have hok : (runs (c.writeProfile (a.profile.stamped a.before.now))
            { a.before with tree := a.opened c }).1 = .ok () := writeProfile_ok_iff.mpr hresult
        rw [herror] at hok
        cases hok
    · rw [herror] at hwritten
      rw [after, hrun, hwritten]
  · rw [stores_iff.mpr hstores] at h
    cases h

theorem after_of_stores (h : a.stores c = true) :
    (a.after c).tree = (runs c.sealSources { a.before with tree := a.written c }).2.tree := by
  obtain ⟨s₂, hwrite, hrun⟩ := (stores_iff.mp h).save_state
  have hwritten : (runs (c.writeProfile (a.profile.stamped a.before.now))
      { a.before with tree := a.opened c }).2 = { a.before with tree := a.written c } :=
    c.writeProfile_state _ _
  rw [makeDirectory_state] at hwrite
  rw [show runs (c.writeProfile (a.profile.stamped a.before.now))
    { a.before with tree := a.opened c } = (.ok (), s₂) from hwrite] at hwritten
  obtain rfl : s₂ = { a.before with tree := a.written c } := hwritten
  rw [after, hrun]

/-- A save that writes its document alone cannot compute the checksum, or cannot write it. -/
theorem after_of_unsealed (hstores : a.stores c = true) (hnone : a.checksum? c = none) :
    (a.after c).tree = a.written c ∨
      ∃ k e, (FileTree.write (a.written c) a.before.clock c.checksumPath.text k).2 = .error e ∧
        (a.after c).tree =
          (FileTree.write (a.written c) a.before.clock c.checksumPath.text k).1 := by
  rw [after_of_stores hstores]
  cases hk : c.project.checksum (a.written c) with
  | error e => exact .inl (sealSources_of_error hk)
  | ok k =>
    right
    refine ⟨k, ?_⟩
    rw [sealSources_of_ok (s := { a.before with tree := a.written c }) hk]
    cases hresult : (FileTree.write (a.written c) a.before.clock c.checksumPath.text k).2 with
    | error e => exact ⟨e, rfl, rfl⟩
    | ok u =>
      rw [checksum?, hstores, if_pos rfl, hk] at hnone
      dsimp only at hnone
      rw [hresult] at hnone
      cases hnone

theorem after_of_sealed {k : String} (h : a.checksum? c = some k) :
    a.stores c = true ∧ c.project.checksum (a.written c) = .ok k ∧
      (FileTree.write (a.written c) a.before.clock c.checksumPath.text k).2 = .ok () ∧
      (a.after c).tree =
        (FileTree.write (a.written c) a.before.clock c.checksumPath.text k).1 := by
  cases hstores : a.stores c with
  | false =>
    rw [checksum?, hstores] at h
    cases h
  | true =>
    rw [after_of_stores hstores]
    rw [checksum?, hstores, if_pos rfl] at h
    cases hk : c.project.checksum (a.written c) with
    | error e =>
      rw [hk] at h
      cases h
    | ok k' =>
      rw [hk] at h
      dsimp only at h
      split at h
      · next hok =>
        obtain rfl : k' = k := Option.some.inj h
        exact ⟨rfl, rfl, isOk_iff.mp hok,
          sealSources_of_ok (s := { a.before with tree := a.written c }) hk⟩
      · cases h

theorem checksum?_of_not_stores (h : a.stores c = false) : a.checksum? c = none := by
  rw [checksum?, h]
  rfl

theorem digest_of_checksum? {k : String} (h : a.checksum? c = some k) :
    ∃ message, k = Sha256.digest message :=
  digest_of_checksum (after_of_sealed h).2.1

theorem written_ok (h : a.stores c = true) :
    (FileTree.write (a.opened c) a.before.clock c.profilePath.text a.document).2 = .ok () := by
  rw [stores, Bool.and_eq_true] at h
  exact isOk_iff.mp h.2

end Save

/-! ### What the last saves have left -/

theorem lastStored_cons (c : Cache) (a : Save τ) (saves : List (Save τ)) :
    c.lastStored (a :: saves) = if a.stores c then some a else c.lastStored saves := by
  rw [lastStored, List.find?_cons]
  split <;> simp_all [lastStored]

theorem lastSealed_cons (c : Cache) (a : Save τ) (saves : List (Save τ)) :
    c.lastSealed (a :: saves) = ((a.checksum? c).map fun k => (a, k)).or (c.lastSealed saves) := by
  rw [lastSealed, List.findSome?_cons]
  cases a.checksum? c <;> rfl

theorem checksum?_of_lastSealed {i : Save τ} {k : String} (h : c.lastSealed saves = some (i, k)) :
    i.checksum? c = some k := by
  obtain ⟨a, -, ha⟩ := List.exists_of_findSome?_eq_some h
  cases hk : a.checksum? c with
  | none =>
    rw [hk] at ha
    cases ha
  | some k' =>
    rw [hk] at ha
    cases ha
    exact hk

theorem lastSealed_of_lastStored {j : Save τ} {k : String} (hj : c.lastStored saves = some j)
    (hk : j.checksum? c = some k) : c.lastSealed saves = some (j, k) := by
  induction saves with
  | nil => cases hj
  | cons a saves ih =>
    rw [lastStored_cons] at hj
    rw [lastSealed_cons]
    cases hstores : a.stores c with
    | true =>
      rw [hstores, if_pos rfl] at hj
      obtain rfl : a = j := Option.some.inj hj
      rw [hk]
      rfl
    | false =>
      rw [hstores, if_neg Bool.false_ne_true] at hj
      rw [Save.checksum?_of_not_stores hstores, Option.map_none, Option.none_or]
      exact ih hj

theorem Traced.start (hprofile : ∀ data, FileTree.read t c.profilePath.text ≠ .ok data)
    (hchecksum : ∀ data, FileTree.read t c.checksumPath.text ≠ .ok data) : c.Traced [] t where
  profile h := absurd h (hprofile _)
  checksum h := absurd h (hchecksum _)

theorem Traced.edit {t' : τ} (h : c.Traced saves t) (hcache : c.SameCache t t') :
    c.Traced saves t' where
  profile hread := h.profile (hcache.profile.symm.trans hread)
  checksum hread := h.checksum (hcache.checksum.symm.trans hread)

variable [OverwritingTree τ]

theorem Save.read_written {a : Save τ} {data : String} (hstores : a.stores c = true)
    (h : FileTree.read (a.written c) c.profilePath.text = .ok data) :
    Text.ReadsAs a.document data :=
  OverwritingTree.read_of_written (Save.written_ok hstores) h

theorem Save.covers_of_unstored {a : Save τ} (hinert : c.Inert a.before.tree)
    (h : a.stores c = false) : c.Covers a.before.tree (a.after c).tree := by
  have hopened : c.Covers a.before.tree (a.opened c) := ⟨hinert.profile, hinert.checksum⟩
  rcases Save.after_of_unstored h with htree | ⟨⟨e, hfailed⟩, htree⟩
  · rw [htree]
    exact hopened
  · rw [htree]
    exact ⟨fun hread => hopened.profile (OverwritingTree.read_of_failed hfailed hread),
      fun hread => hopened.checksum (OverwritingTree.read_of_failed hfailed hread)⟩

theorem Save.read_of_unsealed {a : Save τ} (hstores : a.stores c = true)
    (hnone : a.checksum? c = none) {q data : String}
    (hread : FileTree.read (a.after c).tree q = .ok data) :
    FileTree.read (a.written c) q = .ok data := by
  rcases Save.after_of_unsealed hstores hnone with htree | ⟨k, e, hfailed, htree⟩
  · rwa [htree] at hread
  · rw [htree] at hread
    exact OverwritingTree.read_of_failed hfailed hread

/-- A save leaves its document and its checksum, as far as it comes. -/
theorem Traced.save {a : Save τ} (h : c.Traced saves a.before.tree)
    (hinert : c.Inert a.before.tree) : c.Traced (a :: saves) (a.after c).tree := by
  cases hstores : a.stores c with
  | false =>
    have hcovers := Save.covers_of_unstored hinert hstores
    constructor
    · intro data hread
      rw [lastStored_cons, hstores, if_neg Bool.false_ne_true]
      exact h.profile (hcovers.profile hread)
    · intro data hread
      rw [lastSealed_cons, Save.checksum?_of_not_stores hstores, Option.map_none, Option.none_or]
      exact h.checksum (hcovers.checksum hread)
  | true =>
    cases hk : a.checksum? c with
    | none =>
      constructor
      · intro data hread
        rw [lastStored_cons, hstores, if_pos rfl]
        exact .inl ⟨a, rfl, Save.read_written hstores (Save.read_of_unsealed hstores hk hread)⟩
      · intro data hread
        rw [lastSealed_cons, hk, Option.map_none, Option.none_or]
        -- What is there in the place of the checksum was there before, or is the document.
        rcases OverwritingTree.read_of_write (Save.read_of_unsealed hstores hk hread) with
          hbefore | hdocument
        · exact h.checksum (hinert.checksum hbefore)
        · exact .inr fun message => Profile.digest_ne_document _ hdocument message
    | some k =>
      obtain ⟨-, hchecksum, hwrite, htree⟩ := Save.after_of_sealed hk
      obtain ⟨message, hdigest⟩ := digest_of_checksum hchecksum
      have hbreaks : '\r' ∉ k.toList := by
        rw [hdigest]
        exact Sha256.notMem_digest message
      constructor
      · intro data hread
        rw [lastStored_cons, hstores, if_pos rfl]
        rw [htree] at hread
        rcases OverwritingTree.read_of_write hread with hbefore | hchecksum
        · exact .inl ⟨a, rfl, Save.read_written hstores hbefore⟩
        · exact .inr ⟨message, (hchecksum.eq hbreaks).trans hdigest⟩
      · intro data hread
        rw [lastSealed_cons, hk, Option.map_some, Option.some_or]
        rw [htree] at hread
        obtain rfl := (OverwritingTree.read_of_written hwrite hread).eq hbreaks
        exact .inl ⟨a, rfl⟩

omit [OverwritingTree τ] in
theorem Saves.moment {M : τ → Prop} (hsaves : Saves c M s saves s') : M s'.tree := by
  induction hsaves with
  | start hmoment => exact hmoment
  | save _ _ hmoment => exact hmoment
  | edit _ _ _ hmoment => exact hmoment
  | clock _ _ ih => exact ih

variable {M : τ → Prop} (hinert : ∀ t, M t → c.Inert t)
  (hprofile : ∀ data, FileTree.read s.tree c.profilePath.text ≠ .ok data)
  (hchecksum : ∀ data, FileTree.read s.tree c.checksumPath.text ≠ .ok data)

include hinert hprofile hchecksum

theorem Saves.traced (hsaves : Saves c M s saves s') : c.Traced saves s'.tree := by
  induction hsaves with
  | start => exact .start hprofile hchecksum
  | save p hsaves _ ih => exact ih.save (hinert _ hsaves.moment)
  | edit t _ hcache _ ih => exact ih.edit hcache
  | clock x _ ih => exact ih

/-- Where a run of saves from no cache leaves one that is valid, its profile is of the last save
that wrote one, and its checksum of the last save that wrote one. They are of one save, unless the
former was kept from writing its checksum and the sources are as the latter found them. -/
theorem Saves.valid (hsaves : Saves c M s saves s')
    (hvalid : (c.isValid s'.tree s'.now).result = .ok true) :
    ∃ j i k document, c.lastStored saves = some j ∧ c.lastSealed saves = some (i, k) ∧
      FileTree.read s'.tree c.profilePath.text = .ok document ∧
      Text.ReadsAs j.document document ∧
      FileTree.read s'.tree c.checksumPath.text = .ok k ∧
      c.project.checksum s'.tree = .ok k ∧ (j = i ∨ j.checksum? c = none) := by
  have htraced := hsaves.traced hinert hprofile hchecksum
  obtain ⟨p, text, k, hload, -, htext, hk, htrim⟩ := isValid_true hvalid
  obtain ⟨message, hdigest⟩ := digest_of_checksum hk
  obtain ⟨document, hdocument, hparse⟩ := load_ok hload
  obtain ⟨j, hj, hreads⟩ : ∃ j, c.lastStored saves = some j ∧ Text.ReadsAs j.document document := by
    rcases htraced.profile hdocument with hstored | ⟨message, rfl⟩
    · exact hstored
    · obtain ⟨fault, hfault⟩ := c.parse_digest message s'.now
      rw [hfault] at hparse
      cases hparse
  obtain ⟨i, hi⟩ : ∃ i, c.lastSealed saves = some (i, text) := by
    rcases htraced.checksum htext with hsealed | hother
    · exact hsealed
    · exact absurd (htrim.trans hdigest) (hother message)
  obtain rfl : text = k := by
    obtain ⟨message', rfl⟩ := Save.digest_of_checksum? (checksum?_of_lastSealed hi)
    rw [← htrim, Sha256.trim_digest]
  refine ⟨j, i, text, document, hj, hi, hdocument, hreads, htext, hk, ?_⟩
  cases hsealed : j.checksum? c with
  | none => exact .inr rfl
  | some k' =>
    have heq := (lastSealed_of_lastStored hj hsealed).symm.trans hi
    exact .inl (congrArg Prod.fst (Option.some.inj heq))

end Cache

/-! ### A save that is refused its checksum -/

namespace Guarded

variable {τ : Type} [FileTree τ] {g : Guarded τ} {path : String}

theorem makeDirectories_of_allowed (h : g.refuses .makeDirectories path = false) :
    FileTree.makeDirectories g path = g.setTree (FileTree.makeDirectories g.tree path) := by
  change g.change .makeDirectories path _ = _
  rw [change, h]
  rfl

theorem write_of_allowed (hwrite : g.refuses .write path = false)
    (hmake : ∀ d, g.refuses .makeDirectories d = false) (now : Float) (data : String) :
    FileTree.write g now path data = g.setTree (FileTree.write g.tree now path data) := by
  change g.write now path data = _
  rw [write, hwrite, if_neg Bool.false_ne_true]
  split
  · rw [change, hmake, if_neg Bool.false_ne_true]
  · rfl

theorem write_of_refused (h : g.refuses .write path = true) (now : Float) (data : String) :
    FileTree.write g now path data = (g, .error (.denied path)) := by
  change g.write now path data = _
  rw [write, h, if_pos rfl]

/-- Nothing is refused but changes. -/
structure Readable (g : Guarded τ) : Prop where
  read (path : String) : FileTree.read g path = FileTree.read g.tree path
  walk (path : String) : FileTree.walk g path = FileTree.walk g.tree path

theorem Readable.checksum (h : g.Readable) (p : Project) : p.checksum g = p.checksum g.tree := by
  have hwalk (root : Path) : Project.walkSources g root = Project.walkSources g.tree root := by
    rw [Project.walkSources, h.walk]
    rfl
  rw [Project.checksum_eq, Project.checksum_eq, Project.mainEntries, hwalk]
  rfl

theorem Readable.isValid (h : g.Readable) (c : Cache) (now : Timestamp) :
    c.isValid g now = c.isValid g.tree now := by
  have hload : c.load g now = c.load g.tree now := by
    rw [Cache.load, h.read]
    rfl
  have hmatches : c.matchesSources g = c.matchesSources g.tree := by
    rw [Cache.matchesSources, h.read, h.checksum]
    rfl
  rw [Cache.isValid, hload, hmatches]
  rfl

end Guarded

namespace Cache

open MemoryTree

theorem inert_of_memory (c : Cache) (g : Guarded MemoryTree) : c.Inert g := by
  have hread {q data : String}
      (h : FileTree.read (FileTree.makeDirectories g c.directory.text).1 q = .ok data) :
      FileTree.read g q = .ok data := by
    change (g.change _ _ _).1.read q = .ok data at h
    rw [Guarded.change] at h
    split at h
    · exact h
    · obtain ⟨hread, hdecode, htree⟩ := Guarded.read_ok h
      rw [Guarded.refuses_setTree] at hread hdecode
      refine Guarded.read_of_tree hread hdecode ?_
      rw [← htree]
      exact (read_congr (makeDirectories_files g.tree _) q).symm
  exact ⟨hread, hread⟩

/-- What is refused so that no checksum can be written. -/
def checksumRefused : List (Access × List String) :=
  [(.write, ["checksum"])]

theorem refused_checksum :
    (∀ t : MemoryTree, (Guarded.mk t checksumRefused).refuses .write atRoot.checksumPath.text =
        true) ∧
      (∀ t : MemoryTree, (Guarded.mk t checksumRefused).refuses .write atRoot.profilePath.text =
        false) ∧
      ∀ (t : MemoryTree) path, (Guarded.mk t checksumRefused).refuses .makeDirectories path =
        false := by
  have hnames : checksumRefused.lookup .write = some ["checksum"] := by decide
  have hchecksum : (Path.ofString "/.stackprint/checksum").name = "checksum" := by decide +kernel
  have hprofile : (Path.ofString "/.stackprint/profile.json").name = "profile.json" := by
    decide +kernel
  refine ⟨fun t => ?_, fun t => ?_, fun _ _ => rfl⟩
  · rw [atRoot_checksumPath, Guarded.refuses, hnames, hchecksum]
    decide
  · rw [atRoot_profilePath, Guarded.refuses, hnames, hprofile]
    decide

section Guarded

variable {τ : Type} [FileTree τ] {c : Cache} {a : Save (Guarded τ)} {t : τ}
  {refused : List (Access × List String)}
  (htree : a.before.tree = ⟨t, refused⟩) (hwritable : c.Writable t)
  (hmake : ∀ (t : τ) path, (Guarded.mk t refused).refuses .makeDirectories path = false)
  (hprofile : ∀ t : τ, (Guarded.mk t refused).refuses .write c.profilePath.text = false)

include htree hwritable hmake hprofile

theorem Save.stores_guarded :
    a.stores c = true ∧ a.written c = ⟨c.stored t a.before.clock a.document, refused⟩ := by
  have hdirectory : FileTree.makeDirectories a.before.tree c.directory.text =
      (⟨(FileTree.makeDirectories t c.directory.text).1, refused⟩, .ok ()) := by
    rw [htree, Guarded.makeDirectories_of_allowed (hmake _ _), Guarded.setTree, hwritable.directory]
  have hstored : FileTree.write (a.opened c) a.before.clock c.profilePath.text a.document =
      (⟨c.stored t a.before.clock a.document, refused⟩, .ok ()) := by
    rw [Save.opened, hdirectory]
    dsimp only
    rw [Guarded.write_of_allowed (hprofile _) (hmake _), Guarded.setTree, hwritable.profile]
    rfl
  refine ⟨?_, congrArg Prod.fst hstored⟩
  rw [Save.stores, hdirectory, hstored]
  rfl

theorem Save.after_allowed {k : String}
    (hchecksum : ∀ t : τ, (Guarded.mk t refused).refuses .write c.checksumPath.text = false)
    (hk : c.project.checksum (a.written c) = .ok k) :
    a.checksum? c = some k ∧ (a.after c).tree =
      ⟨c.sealed t a.before.clock a.document k, refused⟩ := by
  obtain ⟨hstores, hwritten⟩ := Save.stores_guarded htree hwritable hmake hprofile
  have hwrite : FileTree.write (a.written c) a.before.clock c.checksumPath.text k =
      (⟨c.sealed t a.before.clock a.document k, refused⟩, .ok ()) := by
    rw [hwritten, Guarded.write_of_allowed (hchecksum _) (hmake _), Guarded.setTree, hwritable.checksum]
    rfl
  have hsome : a.checksum? c = some k := by
    rw [Save.checksum?, hstores, if_pos rfl, hk]
    dsimp only
    rw [hwrite]
    rfl
  obtain ⟨-, -, -, hafter⟩ := Save.after_of_sealed hsome
  exact ⟨hsome, by rw [hafter, hwrite]⟩

theorem Save.after_refused
    (hchecksum : ∀ t : τ, (Guarded.mk t refused).refuses .write c.checksumPath.text = true) :
    a.checksum? c = none ∧ (a.after c).tree = ⟨c.stored t a.before.clock a.document, refused⟩ := by
  obtain ⟨hstores, hwritten⟩ := Save.stores_guarded htree hwritable hmake hprofile
  have hwrite (k : String) : FileTree.write (a.written c) a.before.clock c.checksumPath.text k =
      (⟨c.stored t a.before.clock a.document, refused⟩, .error (.denied c.checksumPath.text)) := by
    rw [hwritten, Guarded.write_of_refused (hchecksum _)]
  have hnone : a.checksum? c = none := by
    cases hsealed : a.checksum? c with
    | none => rfl
    | some k =>
      obtain ⟨-, -, hok, -⟩ := Save.after_of_sealed hsealed
      rw [hwrite] at hok
      cases hok
  refine ⟨hnone, ?_⟩
  rcases Save.after_of_unsealed hstores hnone with hafter | ⟨k, e, -, hafter⟩
  · exact hafter.trans hwritten
  · rw [hafter, hwrite]

end Guarded

theorem readable_guarded (t : MemoryTree) (refused : List (Access × List String))
    (hnames : ∀ a, a ≠ .write → refused.lookup a = none) : (Guarded.mk t refused).Readable := by
  have hallowed {a : Access} (ha : a ≠ .write) (path : String) :
      (Guarded.mk t refused).refuses a path = false := by
    rw [Guarded.refuses, hnames a ha]
    rfl
  constructor
  · intro path
    change (Guarded.mk t refused).read path = _
    rw [Guarded.read, hallowed (by decide), hallowed (by decide)]
    rfl
  · intro path
    change (if (Guarded.mk t refused).refuses .walk path = true then _ else _) = _
    rw [hallowed (by decide), if_neg Bool.false_ne_true]

def guardedSession : Session (Guarded MemoryTree) where
  tree := ⟨bare plainSource plainTest, []⟩
  clock := 0.0

theorem sameCache_guarded (t : MemoryTree) :
    atRoot.SameCache (Guarded.mk t []) (Guarded.mk t checksumRefused) := by
  have hread (path : String) :
      FileTree.read (Guarded.mk t checksumRefused) path = FileTree.read (Guarded.mk t []) path := by
    rw [(readable_guarded t checksumRefused fun a ha => by cases a <;> trivial).read,
      (readable_guarded t [] fun _ _ => rfl).read]
  exact ⟨rfl, hread _, hread _⟩

def layeredProfile : Profile := .standard Timestamp.first

def cleanProfile : Profile := { layeredProfile with architecture := .clean }

theorem storable_cleanProfile : cleanProfile.Storable :=
  ⟨rfl, by decide, by decide⟩

theorem absent_guarded :
    (∀ data, FileTree.read guardedSession.tree atRoot.profilePath.text ≠ .ok data) ∧
      ∀ data, FileTree.read guardedSession.tree atRoot.checksumPath.text ≠ .ok data := by
  obtain ⟨-, hprofile, hchecksum⟩ := key_cache
  have hreadable := readable_guarded (bare plainSource plainTest) [] fun _ _ => rfl
  constructor
  · intro data hread
    rw [guardedSession, hreadable.read, atRoot_profilePath] at hread
    change (bare plainSource plainTest).read _ = _ at hread
    rw [read_eq, hprofile] at hread
    cases hread
  · intro data hread
    rw [guardedSession, hreadable.read, atRoot_checksumPath] at hread
    change (bare plainSource plainTest).read _ = _ at hread
    rw [read_eq, hchecksum] at hread
    cases hread

/-- The first save of a profile succeeds, the second one cannot write its checksum. -/
theorem saves_refused :
    ∃ a b s', Saves atRoot (fun _ => True) guardedSession [b, a] s' ∧
      (atRoot.isValid s'.tree s'.now).result = .ok true ∧
      atRoot.lastStored [b, a] = some b ∧ (∃ k, atRoot.lastSealed [b, a] = some (a, k)) ∧
      a.profile = layeredProfile ∧ b.profile = cleanProfile := by
  obtain ⟨k, hk⟩ := hashed_plain
  obtain ⟨hrefused, hallowed, hmake⟩ := refused_checksum
  obtain ⟨a, ha⟩ : ∃ a : Save (Guarded MemoryTree),
      a = ⟨guardedSession, layeredProfile⟩ := ⟨_, rfl⟩
  have htree : a.before.tree = ⟨bare plainSource plainTest, []⟩ := congrArg (·.before.tree) ha
  have hwritable := writable_bare plainSource plainTest
  obtain ⟨hstores, hwritten⟩ := Save.stores_guarded htree hwritable (fun _ _ => rfl) fun _ => rfl
  have hchecksum : atRoot.project.checksum (a.written atRoot) = .ok k := by
    have hreadable := readable_guarded (atRoot.stored (bare plainSource plainTest) a.before.clock
      a.document) [] fun _ _ => rfl
    rw [hwritten, hreadable.checksum, stored_bare, checksum_described, hk]
  obtain ⟨hsealed, hafter⟩ :=
    Save.after_allowed htree hwritable (fun _ _ => rfl) (fun _ => rfl) (fun _ => rfl) hchecksum
  rw [sealed_bare] at hafter
  have hfirst : Saves atRoot (fun _ => True) guardedSession [a] (a.after atRoot) := by
    rw [ha]
    exact .save _ (.start trivial) trivial
  have hsame := sameCache_guarded (cached plainSource plainTest ⟨a.document, .double a.before.clock⟩
    ⟨k, .double a.before.clock⟩)
  rw [← hafter] at hsame
  obtain ⟨e, he⟩ : ∃ e : Session (Guarded MemoryTree), e = { a.after atRoot with
    tree := ⟨cached plainSource plainTest ⟨a.document, .double a.before.clock⟩
      ⟨k, .double a.before.clock⟩, checksumRefused⟩
    clock := 0.0 } := ⟨_, rfl⟩
  have hedit : Saves atRoot (fun _ => True) guardedSession [a] e := by
    rw [he]
    exact .clock 0.0 (.edit _ hfirst hsame trivial)
  obtain ⟨b, hb⟩ : ∃ b : Save (Guarded MemoryTree),
      b = ⟨e, cleanProfile⟩ := ⟨_, rfl⟩
  have hbtree : b.before.tree = ⟨cached plainSource plainTest ⟨a.document, .double a.before.clock⟩
      ⟨k, .double a.before.clock⟩, checksumRefused⟩ := by
    rw [hb, he]
  have hbwritable := writable_cached plainSource plainTest ⟨a.document, .double a.before.clock⟩
    ⟨k, .double a.before.clock⟩
  obtain ⟨hbstores, -⟩ := Save.stores_guarded hbtree hbwritable hmake hallowed
  obtain ⟨hnone, hbafter⟩ := Save.after_refused hbtree hbwritable hmake hallowed hrefused
  rw [stored_cached] at hbafter
  refine ⟨a, b, { b.after atRoot with clock := 0.0 }, ?_, ?_, ?_, ⟨k, ?_⟩, ?_, ?_⟩
  · rw [hb]
    exact .clock 0.0 (.save _ hedit trivial)
  · change (atRoot.isValid (b.after atRoot).tree _).result = _
    rw [hbafter, (readable_guarded _ checksumRefused fun a ha => by cases a <;> trivial).isValid]
    have hstorable : (b.profile.stamped b.before.now).Storable := by
      rw [hb]
      exact storable_cleanProfile.stamped _
    have hclock : b.before.clock = 0.0 := by rw [hb, he]
    have hfresh : atRoot.isStale (b.profile.stamped b.before.now)
        (Timestamp.ofClock (.double 0.0)) = false := by
      have hstamp (now : Timestamp) : (b.profile.stamped now).detectedAt = now := rfl
      rw [isStale, Profile.age, hstamp, Session.now, hclock]
      decide +kernel
    exact isValid_cached hk hstorable hfresh
  · rw [lastStored_cons, hbstores, if_pos rfl]
  · rw [lastSealed_cons, hnone, Option.map_none, Option.none_or, lastSealed_cons, hsealed]
    rfl
  · rw [ha]
  · rw [hb]

/-- The run satisfies all that `Saves.valid` goes by: the second save kept the checksum of the
first one. -/
theorem valid_refused :
    ∃ a b s', Saves atRoot (fun _ => True) guardedSession [b, a] s' ∧
      ∃ j i k document, atRoot.lastStored [b, a] = some j ∧ atRoot.lastSealed [b, a] = some (i, k) ∧
        FileTree.read s'.tree atRoot.profilePath.text = .ok document ∧
        Text.ReadsAs j.document document ∧
        FileTree.read s'.tree atRoot.checksumPath.text = .ok k ∧
        atRoot.project.checksum s'.tree = .ok k ∧ (j = i ∨ j.checksum? atRoot = none) := by
  obtain ⟨a, b, s', hsaves, hvalid, -⟩ := saves_refused
  obtain ⟨hprofile, hchecksum⟩ := absent_guarded
  exact ⟨a, b, s', hsaves,
    hsaves.valid (fun t _ => atRoot.inert_of_memory t) hprofile hchecksum hvalid⟩

/-- A valid cache can hold the profile of one save and the checksum of another one. -/
theorem halves_refused :
    ∃ saves s', Saves atRoot (fun _ => True) guardedSession saves s' ∧
      (atRoot.isValid s'.tree s'.now).result = .ok true ∧
      ¬ ∃ j k, atRoot.lastStored saves = some j ∧ atRoot.lastSealed saves = some (j, k) := by
  obtain ⟨a, b, s', hsaves, hvalid, hstored, ⟨k, hsealed⟩, ha, hb⟩ := saves_refused
  refine ⟨_, s', hsaves, hvalid, ?_⟩
  rintro ⟨j, k', hj, hjk⟩
  rw [hstored] at hj
  rw [hsealed] at hjk
  obtain rfl : b = j := Option.some.inj hj
  obtain rfl : a = b := congrArg Prod.fst (Option.some.inj hjk)
  have harchitecture := congrArg Profile.architecture (ha.symm.trans hb)
  exact absurd harchitecture (by decide)

end Cache

end JavaProfile
