import JavaProfile.Proofs.Store.Load
import JavaProfile.Proofs.Tree.Names
import JavaProfile.Proofs.Work.Run
import JavaProfile.Store.Save

/-!
Saving a profile. What was saved is loaded again, as long as the checksum is not written over it.
-/

namespace JavaProfile.Cache

open Work

variable {τ : Type} [FileTree τ] (c : Cache) (p : Profile) (s : Session τ)

/-! ### Parts of saving -/

theorem makeDirectory_state :
    (runs c.makeDirectory s).2 =
      { s with tree := (FileTree.makeDirectories s.tree c.directory.text).1 } := by
  rw [makeDirectory, runs_bind, runs_change]
  dsimp only
  split <;> rfl

theorem writeProfile_state :
    (runs (c.writeProfile p) s).2 =
      { s with tree := (FileTree.write s.tree s.clock c.profilePath.text p.document).1 } := by
  rw [writeProfile, runs_bind, runs_change]
  dsimp only
  split <;> rfl

theorem writeProfile_ok (h : (runs (c.writeProfile p) s).1 = .ok ()) :
    (FileTree.write s.tree s.clock c.profilePath.text p.document).2 = .ok () := by
  rw [writeProfile, runs_bind, runs_change] at h
  dsimp only at h
  split at h
  · next heq => exact heq
  · cases h

theorem writeChecksum_tree (checksum : String) :
    (runs (c.writeChecksum checksum) s).2.tree =
      (FileTree.write s.tree s.clock c.checksumPath.text checksum).1 := by
  rw [writeChecksum, runs_bind, runs_change]
  dsimp only
  split
  · rfl
  · split <;> rfl

theorem sealSources_tree :
    (runs c.sealSources s).2.tree = s.tree ∨
      ∃ checksum, c.project.checksum s.tree = .ok checksum ∧
        (runs c.sealSources s).2.tree =
          (FileTree.write s.tree s.clock c.checksumPath.text checksum).1 := by
  rw [sealSources, runs_bind, runs_get]
  dsimp only
  cases h : c.project.checksum s.tree with
  | ok checksum =>
    right
    exact ⟨checksum, rfl, writeChecksum_tree c s checksum⟩
  | error e =>
    left
    cases e with
    | tree cause =>
      dsimp only
      split <;> rfl
    | _ => rfl

theorem save_eq :
    (c.save p : Work τ Profile) = (do
      c.makeDirectory
      let s ← get
      c.writeProfile (p.stamped s.now)
      c.sealSources
      return p.stamped s.now) :=
  rfl

theorem save_runs :
    runs (c.save p) s =
      match runs c.makeDirectory s with
      | (.error e, s₁) => (.error e, s₁)
      | (.ok (), s₁) =>
        match runs (c.writeProfile (p.stamped s₁.now)) s₁ with
        | (.error e, s₂) => (.error e, s₂)
        | (.ok (), s₂) =>
          match runs c.sealSources s₂ with
          | (.error e, s₃) => (.error e, s₃)
          | (.ok (), s₃) => (.ok (p.stamped s₁.now), s₃) := by
  rw [save_eq, runs_bind]
  rcases runs c.makeDirectory s with ⟨_ | _, s₁⟩
  · rfl
  · dsimp only
    rw [runs_bind, runs_get]
    dsimp only
    rw [runs_bind]
    rcases runs (c.writeProfile (p.stamped s₁.now)) s₁ with ⟨_ | _, s₂⟩
    · rfl
    · dsimp only
      rw [runs_bind]
      rcases runs c.sealSources s₂ with ⟨_ | _, s₃⟩ <;> rfl

/-! ### What is saved -/

theorem isName_profileName : IsName profileName := by
  constructor <;> decide

theorem isName_checksumName : IsName checksumName := by
  constructor <;> decide

/-- Saving gets as far as to write the profile, whatever becomes of the checksum. -/
def Stores : Prop :=
  (runs c.makeDirectory s).1 = .ok () ∧
    (runs (c.writeProfile (p.stamped s.now)) (runs c.makeDirectory s).2).1 = .ok ()

theorem makeDirectory_now : (runs c.makeDirectory s).2.now = s.now := by
  rw [makeDirectory_state]
  rfl

/-- Saving fails at the directory or at the profile, or it ends with sealing. -/
theorem save_cases :
    (∃ e, (runs c.makeDirectory s).1 = .error e ∧
      runs (c.save p) s = (.error e, (runs c.makeDirectory s).2)) ∨
    (∃ e s₂, runs (c.writeProfile (p.stamped s.now)) (runs c.makeDirectory s).2 =
        (.error e, s₂) ∧ runs (c.save p) s = (.error e, s₂)) ∨
    ∃ s₂, c.Stores p s ∧
      runs (c.writeProfile (p.stamped s.now)) (runs c.makeDirectory s).2 =
        (.ok (), s₂) ∧
      runs (c.save p) s =
        ((runs c.sealSources s₂).1.map fun _ => (p.stamped s.now),
          (runs c.sealSources s₂).2) := by
  have hnow := c.makeDirectory_now s
  rw [save_runs]
  unfold Stores
  rcases hdirectory : runs c.makeDirectory s with ⟨e | ⟨⟩, s₁⟩
  · exact .inl ⟨e, rfl, rfl⟩
  · right
    rw [hdirectory] at hnow
    dsimp only at hnow ⊢
    rw [hnow]
    rcases runs (c.writeProfile (p.stamped s.now)) s₁ with ⟨e | ⟨⟩, s₂⟩
    · exact .inl ⟨e, s₂, rfl, rfl⟩
    · refine .inr ⟨s₂, ⟨rfl, rfl⟩, rfl, ?_⟩
      dsimp only
      rcases runs c.sealSources s₂ with ⟨_ | _, s₃⟩ <;> rfl

variable {c p s}

theorem Stores.save_state (h : c.Stores p s) :
    ∃ s₂, runs (c.writeProfile (p.stamped s.now)) (runs c.makeDirectory s).2 =
        (.ok (), s₂) ∧
      (runs (c.save p) s).2 = (runs c.sealSources s₂).2 := by
  rcases c.save_cases p s with ⟨e, herror, -⟩ | ⟨e, s₂, herror, -⟩ | ⟨s₂, -, hwrite, hsave⟩
  · rw [h.1] at herror
    cases herror
  · have hok := h.2
    rw [herror] at hok
    cases hok
  · exact ⟨s₂, hwrite, by rw [hsave]⟩

variable (c) [LawfulTree τ]

/-- The path of the checksum does not lead to where the profile is. -/
def Apart (t : τ) : Prop :=
  LawfulTree.place? t c.checksumPath.text ≠ LawfulTree.place? t c.profilePath.text

variable {c}

theorem Apart.of_write {t : τ} {now : Float} {q new data : String}
    (h : c.Apart (FileTree.write t now q new).1)
    (hread : FileTree.read t c.profilePath.text = .ok data) : c.Apart t := by
  intro heq
  obtain ⟨l, hl⟩ := LawfulTree.place?_of_read hread
  apply h
  rw [LawfulTree.place?_write hl, LawfulTree.place?_write (heq.trans hl)]

theorem sealSources_read {data : String} (hapart : c.Apart (runs c.sealSources s).2.tree)
    (hread : FileTree.read s.tree c.profilePath.text = .ok data) :
    FileTree.read (runs c.sealSources s).2.tree c.profilePath.text = .ok data := by
  rcases c.sealSources_tree s with htree | ⟨checksum, -, htree⟩
  · rw [htree]
    exact hread
  · rw [htree] at hapart ⊢
    exact LawfulTree.read_write_apart hread (hapart.of_write hread) s.clock checksum

theorem save_read (hp : p.Storable) (hstores : c.Stores p s)
    (hapart : c.Apart (runs (c.save p) s).2.tree) :
    FileTree.read (runs (c.save p) s).2.tree c.profilePath.text =
      .ok (p.stamped s.now).document := by
  obtain ⟨s₂, hprofile, hstate⟩ := hstores.save_state
  have hstamped := hp.stamped s.now
  rw [hstate] at hapart ⊢
  apply sealSources_read hapart
  have hok := c.writeProfile_ok (p.stamped s.now) (runs c.makeDirectory s).2
    (by rw [hprofile])
  have htree := c.writeProfile_state (p.stamped s.now) (runs c.makeDirectory s).2
  rw [hprofile] at htree
  obtain rfl : s₂ = _ := htree
  exact LawfulTree.read_write hstamped.notMem_document (Prod.ext rfl hok)

theorem name_key (c : Cache) {name : String} (hname : IsName name) :
    (MemoryTree.key (Path.mk c.directory.root (c.directory.parts ++ [name])).text).name = name := by
  have hdirectory : c.directory.parts ≠ [] := by
    change c.project.directory.parts ++ [directoryName] ≠ []
    simp
  rw [Path.text_append _ hdirectory, MemoryTree.name_key _ hname]

theorem name_key_profilePath (c : Cache) : (MemoryTree.key c.profilePath.text).name = profileName :=
  c.name_key isName_profileName

theorem name_key_checksumPath (c : Cache) :
    (MemoryTree.key c.checksumPath.text).name = checksumName :=
  c.name_key isName_checksumName

/-- In memory no two paths of the cache lead to one file. -/
theorem apart_of_memory (c : Cache) (t : MemoryTree) : c.Apart t := by
  intro heq
  have hkey : MemoryTree.key c.checksumPath.text = MemoryTree.key c.profilePath.text :=
    Option.some.inj heq
  have hname := congrArg Path.name hkey
  rw [name_key_checksumPath, name_key_profilePath] at hname
  exact absurd hname (by decide)

end JavaProfile.Cache
