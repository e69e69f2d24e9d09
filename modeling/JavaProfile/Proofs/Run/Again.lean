import JavaProfile.Proofs.Run.HalfSave
import JavaProfile.Proofs.Run.Lock
import JavaProfile.Proofs.Store.Moment

/-!
A second call. What a call has saved in memory, or has found valid there, is what the next call
returns, and that one writes nothing.
-/

namespace JavaProfile

/-! ### Paths with one parent -/

namespace Path

theorem rootOf_append {cs : List Char} (h : 3 ≤ cs.length) (ds : List Char) :
    rootOf (cs ++ ds) = rootOf cs := by
  match cs, h with
  | a :: b :: c :: rest, _ =>
    simp only [List.cons_append]
    by_cases ha : a = '/'
    · by_cases hb : b = '/'
      · subst ha hb
        rfl
      · subst ha
        simp [rootOf, hb]
    · simp [rootOf, ha]

theorem parts_normalize {p : Path} {parts : List String} {part : String}
    (h : p.parts = parts ++ [part]) (hpart : part ≠ "..") :
    p.normalize.parent.parts = (parts.foldl (resolveStep p.root) []).reverse := by
  rw [parent, normalize, h, List.foldl_append, List.foldl_cons, List.foldl_nil,
    resolveStep_name _ _ hpart]
  simp

end Path

namespace MemoryTree

theorem parent_key {s : String} (hs : 3 ≤ s.toList.length) {part part' : String}
    (hpart : IsName part) (hpart' : IsName part') :
    (key (s ++ "/" ++ part)).parent = (key (s ++ "/" ++ part')).parent := by
  have hroot (name : String) : (Path.ofString (s ++ "/" ++ name)).root = Path.rootOf s.toList := by
    rw [Path.ofString, String.toList_append, String.toList_append, List.append_assoc]
    exact Path.rootOf_append hs _
  have hparts := Path.parts_normalize (Path.parts_ofString_append s hpart) hpart.ne_up
  have hparts' := Path.parts_normalize (Path.parts_ofString_append s hpart') hpart'.ne_up
  rw [hroot] at hparts hparts'
  rw [key, key]
  calc (Path.ofString (s ++ "/" ++ part)).normalize.parent
      = ⟨(Path.ofString (s ++ "/" ++ part)).root,
          (Path.ofString (s ++ "/" ++ part)).normalize.parent.parts⟩ := rfl
    _ = ⟨(Path.ofString (s ++ "/" ++ part')).root,
          (Path.ofString (s ++ "/" ++ part')).normalize.parent.parts⟩ := by
        rw [hroot, hroot, hparts, hparts']

/-! ### Writes that make no directory -/

variable {t t' : MemoryTree} {now : Float} {p q data : String}

theorem makeDirectories_of_hasDirectory (h : t.hasDirectory (key p) = true) :
    (t.makeDirectories p).1 = t := by
  have hmissing : t.missing (key p) = [] := by
    simp [missing, h]
  unfold makeDirectories
  dsimp only
  split
  · rfl
  · rw [hmissing]
    rfl

theorem hasDirectory_makeDirectories (h : t.makeDirectories p = (t', .ok ())) :
    t'.hasDirectory (key p) = true := by
  unfold makeDirectories at h
  dsimp only at h
  split at h
  · cases h
  · cases h
    rw [hasDirectory, List.contains_iff_mem, List.mem_append]
    by_cases hk : t.hasDirectory (key p) = true
    · rw [hasDirectory, List.contains_iff_mem] at hk
      exact .inr hk
    · left
      rw [missing, List.takeWhile_cons_of_pos (by simpa using hk)]
      exact List.mem_cons_self

theorem hasDirectory_write (h : t.write now p data = (t', .ok ())) :
    t'.hasDirectory (key (key p).parent.text) = true := by
  unfold write at h
  cases himplied : t.impliedDirectory p with
  | none =>
    rw [himplied] at h
    cases h
  | some directory =>
    have hdirectory : directory = (key p).parent.text := by
      rw [impliedDirectory] at himplied
      split at himplied
      · cases himplied
      · exact (Option.some.inj himplied).symm
    rw [himplied] at h
    dsimp only at h
    rcases hmake : t.makeDirectories directory with ⟨t₁, e | ⟨⟩⟩
    · rw [hmake] at h
      cases h
    · rw [hmake] at h
      cases h
      rw [← hdirectory]
      change t₁.hasDirectory (key directory) = true
      exact hasDirectory_makeDirectories hmake

theorem write_error {e : TreeError} (h : (t.write now p data).2 = .error e) :
    (t.write now p data).1 = t := by
  unfold write at h ⊢
  split
  · rfl
  · next directory himplied =>
    rw [himplied] at h
    dsimp only at h ⊢
    unfold makeDirectories at h ⊢
    dsimp only at h ⊢
    split
    · next heq =>
      split at heq
      · cases heq
        rfl
      · cases heq
    · next heq =>
      rw [heq] at h
      cases h

theorem beside_write_around (hparent : t.hasDirectory (key (key p).parent.text) = true)
    (hp : (key p).suffix ≠ sourceSuffix) (now : Float) (data : String) :
    t.Beside (t.write now p data).1 := by
  unfold write
  split
  · exact .refl t
  · next directory himplied =>
    have hdirectory : directory = (key p).parent.text := by
      rw [impliedDirectory] at himplied
      split at himplied
      · cases himplied
      · exact (Option.some.inj himplied).symm
    have hmake := makeDirectories_of_hasDirectory (hdirectory ▸ hparent)
    rcases hresult : t.makeDirectories directory with ⟨t', e | ⟨⟩⟩
    · rw [hresult] at hmake
      obtain rfl : t' = t := hmake
      exact .refl t'
    · rw [hresult] at hmake
      obtain rfl : t' = t := hmake
      exact ⟨filter_putFile hp _ _, fun _ hd => hd, fun _ hd hnot => absurd hd hnot⟩

end MemoryTree

/-- A file was written on the way to a tree. -/
def Recorded.Wrote {τ : Type} (r r' : Recorded τ) (path : String) : Prop :=
  ∃ new, r'.writes = r.writes ++ new ∧ ∃ w ∈ new, w.path = path ∧ w.result = .ok ()

namespace Cache

open Work

/-- The next call finds the profile in the cache and returns it, and changes no file. -/
def Repeats {τ : Type} [FileTree τ] (c : Cache) (p : Profile) (s : Session τ) : Prop :=
  ∃ s', s.Quiet s' ∧ runs c.reuse? s = (.ok (some p), s') ∧
    runs (c.loadOrDetect false) s = (.ok p, s')

section Calls

variable {τ : Type} [FileTree τ] {c : Cache} {s s' : Session τ} {p q : Profile}

theorem repeats_of_valid (hvalid : (c.isValid s.tree s.now).result = .ok true)
    (hload : (c.load s.tree s.now).result = .ok (some p)) : c.Repeats p s := by
  obtain ⟨s', hquiet, hreuse⟩ := c.reuse_runs s
  have hsome : runs c.reuse? s = (.ok (some p), s') := by
    rw [hreuse, hvalid]
    dsimp only [Except.bind]
    rw [if_pos rfl, hload]
  refine ⟨s', hquiet, hsome, ?_⟩
  rw [loadOrDetect, if_neg Bool.false_ne_true, runs_bind_of_ok hsome]
  rfl

theorem repeats_of_matches [LawfulTree τ] (hp : p.Storable)
    (hread : FileTree.read s.tree c.profilePath.text = .ok p.document)
    (hfresh : c.isStale p s.now = false) (hmatches : c.matchesSources s.tree = .ok true) :
    c.Repeats p s := by
  have hload : (c.load s.tree s.now).result = .ok (some p) := by
    rw [load_of_read hread, parse_document hp]
    rfl
  refine repeats_of_valid ?_ hload
  rw [isValid_result, hload]
  dsimp only
  rw [hfresh, if_neg Bool.false_ne_true, hmatches]
  rfl

end Calls

/-! ### Saving in memory -/

section Saving

variable {c : Cache} {a : Save (Recorded MemoryTree)} {k : String}

theorem keys_apart : MemoryTree.key c.checksumPath.text ≠ MemoryTree.key c.profilePath.text := by
  intro heq
  exact c.apart_of_memory ⟨[], []⟩ (congrArg some heq)

theorem paths_apart : c.profilePath.text ≠ c.checksumPath.text := by
  intro heq
  exact keys_apart (congrArg MemoryTree.key heq.symm)

theorem parent_checksumPath : (MemoryTree.key c.checksumPath.text).parent =
    (MemoryTree.key c.profilePath.text).parent := by
  have hdirectory : c.directory.parts ≠ [] := by
    change c.project.directory.parts ++ [directoryName] ≠ []
    simp
  have htext (name : String) : (Path.mk c.directory.root (c.directory.parts ++ [name])).text =
      c.directory.text ++ "/" ++ name := by
    rw [Path.text_append _ hdirectory, Path.text, if_neg fun h => hdirectory h.2]
  have hlong : 3 ≤ c.directory.text.toList.length := by
    have hname : 3 ≤ directoryName.toList.length := by decide
    change 3 ≤ (Path.mk c.project.directory.root
      (c.project.directory.parts ++ [directoryName])).text.toList.length
    by_cases hparts : c.project.directory.parts = []
    · have htext : (Path.mk c.project.directory.root [directoryName]).text =
          c.project.directory.root.text ++ directoryName := by
        rw [Path.text, if_neg fun h => List.cons_ne_nil _ _ h.2, String.intercalate_singleton]
      rw [hparts, List.nil_append, htext, String.toList_append, List.length_append]
      omega
    · rw [Path.text_append _ hparts, String.toList_append, List.length_append]
      omega
  change (MemoryTree.key (Path.mk c.directory.root (c.directory.parts ++ [checksumName])).text).parent =
    (MemoryTree.key (Path.mk c.directory.root (c.directory.parts ++ [profileName])).text).parent
  rw [htext, htext]
  exact MemoryTree.parent_key hlong isName_checksumName isName_profileName

theorem opened_writes : (a.opened c).writes = a.before.tree.writes :=
  rfl

theorem written_writes : (a.written c).writes = a.before.tree.writes ++ [⟨c.profilePath.text,
    a.document, (FileTree.write (a.opened c) a.before.clock c.profilePath.text a.document).2⟩] :=
  rfl

theorem Save.stores_of_wrote
    (h : a.before.tree.Wrote (a.after c).tree c.profilePath.text) : a.stores c = true := by
  obtain ⟨new, hnew, w, hw, -, hok⟩ := h
  cases hstores : a.stores c with
  | true => rfl
  | false =>
    exfalso
    rcases Save.after_of_unstored hstores with htree | ⟨⟨e, hfailed⟩, htree⟩
    · rw [htree, opened_writes] at hnew
      rw [List.self_eq_append_right.mp hnew] at hw
      cases hw
    · rw [htree, written_writes, hfailed] at hnew
      rw [← List.append_cancel_left hnew] at hw
      obtain rfl := List.mem_singleton.mp hw
      cases hok

theorem Save.checksum_of_wrote
    (h : a.before.tree.Wrote (a.after c).tree c.checksumPath.text) : ∃ k, a.checksum? c = some k := by
  obtain ⟨new, hnew, w, hw, hpath, hok⟩ := h
  have hwritten (htree : (a.after c).tree = a.written c) : False := by
    rw [htree, written_writes] at hnew
    rw [← List.append_cancel_left hnew] at hw
    obtain rfl := List.mem_singleton.mp hw
    exact paths_apart hpath
  cases hsealed : a.checksum? c with
  | some k => exact ⟨k, rfl⟩
  | none =>
    exfalso
    cases hstores : a.stores c with
    | false =>
      rcases Save.after_of_unstored hstores with htree | ⟨-, htree⟩
      · rw [htree, opened_writes] at hnew
        rw [List.self_eq_append_right.mp hnew] at hw
        cases hw
      · exact hwritten htree
    | true =>
      rcases Save.after_of_unsealed hstores hsealed with htree | ⟨k, e, hfailed, htree⟩
      · exact hwritten htree
      · rw [htree, Recorded.write_writes, written_writes, List.append_assoc] at hnew
        rw [← List.append_cancel_left hnew] at hw
        rcases List.mem_append.mp hw with hw | hw
        · obtain rfl := List.mem_singleton.mp hw
          exact paths_apart hpath
        · obtain rfl := List.mem_singleton.mp hw
          exact absurd (hok.symm.trans hfailed) nofun

theorem checksum_recorded (project : Project) (r : Recorded MemoryTree) :
    project.checksum r = project.checksum r.tree :=
  rfl

theorem matches_of_sealed (hk : a.checksum? c = some k) :
    c.matchesSources (a.after c).tree = .ok true := by
  obtain ⟨message, hdigest⟩ := Save.digest_of_checksum? hk
  obtain ⟨hstores, hchecksum, hwrite, htree⟩ := Save.after_of_sealed hk
  have hread : FileTree.read (a.after c).tree c.checksumPath.text = .ok k := by
    rw [htree]
    refine LawfulTree.read_write ?_ (Prod.ext rfl hwrite)
    rw [hdigest]
    exact Sha256.notMem_digest message
  have haround : (a.written c).tree.hasDirectory
      (MemoryTree.key (MemoryTree.key c.checksumPath.text).parent.text) = true := by
    rw [parent_checksumPath]
    exact MemoryTree.hasDirectory_write (Prod.ext rfl (Save.written_ok hstores))
  have hbeside := MemoryTree.beside_write_around haround c.suffix_key_checksumPath
    a.before.clock k
  have hcurrent : c.project.checksum (a.after c).tree = .ok k := by
    rw [htree, checksum_recorded, Recorded.write_tree]
    exact (hbeside.checksum c.project).trans hchecksum
  rw [matchesSources, hread, hcurrent, hdigest]
  change Except.ok (decide (String.ofList (Text.trim _) = _)) = _
  rw [Sha256.trim_digest, decide_eq_true rfl]

/-- Where no checksum gets written, the earlier one still matches if it did before. -/
theorem matches_of_unsealed (ht : a.before.tree.tree.Tidy) (hstores : a.stores c = true)
    (hnone : a.checksum? c = none) (hmatches : c.matchesSources a.before.tree = .ok true) :
    c.matchesSources (a.after c).tree = .ok true := by
  have htree : (a.after c).tree.tree = c.stored a.before.tree.tree a.before.clock a.document := by
    rcases Save.after_of_unsealed hstores hnone with htree | ⟨k, e, hfailed, htree⟩
    · rw [htree]
      rfl
    · rw [htree, Recorded.write_tree]
      exact MemoryTree.write_error hfailed
  obtain ⟨text, k, htext, hk, htrim⟩ := matchesSources_true hmatches
  have hread : FileTree.read (a.after c).tree c.checksumPath.text = .ok text := by
    change FileTree.read (a.after c).tree.tree c.checksumPath.text = _
    rw [htree]
    refine LawfulTree.read_write_apart (LawfulTree.read_makeDirectories htext _) ?_ _ _
    intro heq
    exact keys_apart (Option.some.inj heq).symm
  have hcurrent : c.project.checksum (a.after c).tree = .ok k := by
    rw [checksum_recorded, htree]
    exact ((c.beside_stored ht a.before.clock a.document).checksum c.project).trans hk
  rw [matchesSources, hread, hcurrent, ← htrim]
  change Except.ok (decide (_ = _)) = _
  rw [decide_eq_true rfl]

end Saving

theorem matches_of_isValid {τ : Type} [FileTree τ] {c : Cache} {t : τ} {now : Timestamp}
    (h : (c.isValid t now).result = .ok true) : c.matchesSources t = .ok true := by
  obtain ⟨p, text, k, -, -, htext, hk, htrim⟩ := isValid_true h
  rw [matchesSources, htext, hk]
  change Except.ok (decide (_ = _)) = _
  rw [htrim, decide_eq_true rfl]

variable {c : Cache} {s s' : Session (Recorded MemoryTree)} {p : Profile} {refresh : Bool}

/-- A new detection is found by the next call if it wrote both files, or wrote the profile beside
a checksum that has stayed right. -/
theorem repeats_detectAgain (hlifetime : 0 ≤ c.lifetime.micros)
    (hrun : runs c.detectAgain s = (.ok p, s'))
    (hprofile : s.tree.Wrote s'.tree c.profilePath.text)
    (hchecksum : s.tree.Wrote s'.tree c.checksumPath.text ∨
      s.tree.tree.Tidy ∧ c.matchesSources s.tree = .ok true) : c.Repeats p s' := by
  rcases c.detectAgain_cases s with ⟨e, s₁, -, herror, -⟩ |
    ⟨previous, scan, s₁, hquiet, hprevious, -, hsave⟩
  · rw [hrun] at herror
    cases herror
  · have hstorable : ((scan.profile c.project.directory s.now).carryFrom? previous).Storable :=
      storable_carryFrom? (scan.storable_profile _ _) hprevious
    rw [hrun] at hsave
    obtain ⟨s₂, hafter, hruns⟩ :=
      c.saveIfPossible_runs s₁ ((scan.profile c.project.directory s.now).carryFrom? previous)
    set a : Save (Recorded MemoryTree) :=
      ⟨s₁, (scan.profile c.project.directory s.now).carryFrom? previous⟩
    have hlast : (a.after c).Quiet s' := by
      have hstate : s' = s₂ := by
        rw [hruns] at hsave
        exact congrArg Prod.snd hsave
      rw [hstate]
      exact hafter
    rw [hlast.tree, ← hquiet.tree] at hprofile hchecksum
    have hstores : a.stores c = true := Save.stores_of_wrote hprofile
    have hStores : c.Stores a.profile a.before := Save.stores_iff.mp hstores
    obtain rfl := saveIfPossible_stamped hStores hsave.symm
    have hnow : s'.now = a.before.now :=
      ((c.save_moment a.profile a.before).trans hlast.moment).now
    refine repeats_of_matches (hstorable.stamped _) ?_ ?_ ?_
    · rw [hlast.tree]
      exact save_read hstorable hStores (c.apart_of_memory (a.after c).tree.tree)
    · rw [hnow]
      exact isStale_at hlifetime rfl
    · rw [hlast.tree]
      cases hsealed : a.checksum? c with
      | some k => exact matches_of_sealed hsealed
      | none =>
        rcases hchecksum with hwrote | ⟨ht, hmatches⟩
        · obtain ⟨k, hk⟩ := Save.checksum_of_wrote hwrote
          rw [hsealed] at hk
          cases hk
        · exact matches_of_unsealed ht hstores hsealed hmatches

/-- What a call returns is returned by the next one, from the cache and without a write, if the call
wrote both files or the cache was valid. Where the call was asked to detect anew, it is not enough
that the cache was valid: the new profile has to be written. -/
theorem loadOrDetect_again (hlifetime : 0 ≤ c.lifetime.micros)
    (hrun : runs (c.loadOrDetect refresh) s = (.ok p, s'))
    (hsaved : (s.tree.Wrote s'.tree c.profilePath.text ∧ s.tree.Wrote s'.tree c.checksumPath.text) ∨
      (c.isValid s.tree s.now).result = .ok true ∧
        (refresh = true → s.tree.tree.Tidy ∧ s.tree.Wrote s'.tree c.profilePath.text)) :
    c.Repeats p s' := by
  rcases c.loadOrDetect_cases s refresh with ⟨e, s₁, -, herror, -⟩ |
    ⟨q, s₁, hquiet, hhit, -, hvalid, hload⟩ | ⟨s₁, hquiet, hagain, hmiss⟩
  · rw [hrun] at herror
    cases herror
  · rw [hrun] at hhit
    obtain ⟨rfl, rfl⟩ : p = q ∧ s' = s₁ := by
      cases hhit
      exact ⟨rfl, rfl⟩
    refine repeats_of_valid ?_ ?_
    · rw [hquiet.tree, hquiet.now]
      exact hvalid
    · rw [hquiet.tree, hquiet.now]
      exact hload
  · rw [hrun] at hagain
    rw [← hquiet.tree, ← hquiet.now] at hsaved hmiss
    rcases hsaved with ⟨hprofile, hchecksum⟩ | ⟨hvalid, hrefresh⟩
    · exact repeats_detectAgain hlifetime hagain.symm hprofile (.inl hchecksum)
    · rcases hmiss with rfl | hinvalid | hnone
      · obtain ⟨ht, hprofile⟩ := hrefresh rfl
        exact repeats_detectAgain hlifetime hagain.symm hprofile
          (.inr ⟨ht, matches_of_isValid hvalid⟩)
      · rw [hvalid] at hinvalid
        cases hinvalid
      · obtain ⟨q, -, -, hload, -⟩ := isValid_true hvalid
        rw [hnone] at hload
        cases hload

theorem scannable_recorded (project : Project) (r : Recorded MemoryTree) :
    project.Scannable r := by
  obtain ⟨hmanifests, hcontents⟩ := project.scannable_of_memory r.tree
  exact ⟨hmanifests, hcontents⟩

theorem wrote_sealed {τ : Type} [FileTree τ] {r : Recorded τ} (h : c.Writable r) (now : Float)
    (document k : String) :
    r.Wrote (c.sealed r now document k) c.profilePath.text ∧
      r.Wrote (c.sealed r now document k) c.checksumPath.text := by
  have hwrites : (c.sealed r now document k).writes = r.writes ++
      [⟨c.profilePath.text, document, .ok ()⟩, ⟨c.checksumPath.text, k, .ok ()⟩] := by
    rw [sealed, Recorded.write_writes, ← Recorded.write_result, h.checksum, stored,
      Recorded.write_writes, ← Recorded.write_result, h.profile, List.append_assoc]
    rfl
  exact ⟨⟨_, hwrites, _, List.mem_cons_self, rfl, rfl⟩,
    ⟨_, hwrites, _, List.mem_cons_of_mem _ List.mem_cons_self, rfl, rfl⟩⟩

def bareSession : Session (Recorded MemoryTree) where
  tree := ⟨MemoryTree.bare plainSource plainTest, []⟩
  clock := 0.0

theorem loadOrDetect_again_bare :
    ∃ p s', runs (atRoot.loadOrDetect true) bareSession = (.ok p, s') ∧
      bareSession.tree.Wrote s'.tree atRoot.profilePath.text ∧
      bareSession.tree.Wrote s'.tree atRoot.checksumPath.text ∧ atRoot.Repeats p s' := by
  obtain ⟨k, hk⟩ := hashed_plain
  obtain ⟨p, hp⟩ : ∃ p, atRoot.project.detected bareSession.tree bareSession.now = .ok p :=
    (scannable_recorded _ _).detected _
  have hwritable : atRoot.Writable bareSession.tree := by
    have h := writable_bare plainSource plainTest
    exact ⟨h.directory, h.profile, h.checksum⟩
  obtain ⟨-, -, -, habsent⟩ := MemoryTree.sources_bare plainSource plainTest
  have hchecksum : atRoot.project.checksum (atRoot.stored bareSession.tree bareSession.clock
      p.document) = .ok k := by
    change atRoot.project.checksum
      (atRoot.stored (MemoryTree.bare plainSource plainTest) bareSession.clock p.document) = _
    rw [stored_bare, checksum_described, hk]
  obtain ⟨s', hrun, htree, -⟩ :=
    hwritable.loadOrDetect_runs (s := bareSession) hp habsent hchecksum true
  obtain ⟨hprofile, hwrote⟩ := wrote_sealed hwritable bareSession.clock p.document k
  rw [← htree] at hprofile hwrote
  exact ⟨p, s', hrun, hprofile, hwrote,
    loadOrDetect_again (by decide) hrun (.inl ⟨hprofile, hwrote⟩)⟩

/-! ### A profile that cannot be written -/

theorem isValid_congr {τ : Type} [FileTree τ] {c : Cache} {t t' : τ} (hcache : c.SameCache t t')
    (hchecksum : c.project.checksum t' = c.project.checksum t) (now : Timestamp) :
    (c.isValid t' now).result = (c.isValid t now).result := by
  rw [isValid_result, isValid_result, hcache.load, matchesSources, matchesSources,
    hcache.checksum, hchecksum]

/-- A session with a valid cache in memory, where the path of the profile is a directory as well. -/
def blockedSession : Session (Recorded MemoryTree) where
  tree := ⟨{ lockedSession.tree.tree with
    directories := [⟨.single, [".stackprint", "profile.json", "x"]⟩,
      ⟨.single, [".stackprint", "profile.json"]⟩, ⟨.single, [".stackprint"]⟩, ⟨.single, []⟩] }, []⟩
  clock := 60.0

theorem sameCache_blockedSession : atRoot.SameCache lockedSession.tree blockedSession.tree := by
  have hread (path : String) :
      FileTree.read blockedSession.tree path = FileTree.read lockedSession.tree path := rfl
  obtain ⟨text, htext, -⟩ := load_ok (load_lockedSession lockedSession.now)
  exact ⟨(LawfulTree.contains_of_read ((hread _).trans htext)).trans
    (LawfulTree.contains_of_read htext).symm, hread _, hread _⟩

theorem isValid_blockedSession :
    (atRoot.isValid blockedSession.tree blockedSession.now).result = .ok true := by
  have hmissing : FileTree.isDirectory lockedSession.tree "/src/main/java" = .ok false := by
    decide +kernel
  have hmissing' : FileTree.isDirectory blockedSession.tree "/src/main/java" = .ok false := by
    decide +kernel
  rw [isValid_congr sameCache_blockedSession
    ((checksum_of_missing hmissing').trans (checksum_of_missing hmissing).symm)]
  exact isValid_lockedSession

theorem blocked_paths :
    FileTree.makeDirectories blockedSession.tree atRoot.directory.text =
        (blockedSession.tree, .ok ()) ∧
      ∀ now document, ∃ path,
        (FileTree.write blockedSession.tree now atRoot.profilePath.text document).2 =
          .error (.isDirectory path) := by
  obtain ⟨hdirectory, hprofile, -⟩ := MemoryTree.key_cache
  constructor
  · rw [atRoot_directory]
    have hmake : blockedSession.tree.tree.makeDirectories "/.stackprint" =
        (blockedSession.tree.tree, .ok ()) := by
      rw [MemoryTree.makeDirectories, hdirectory]
      rfl
    refine Prod.ext ?_ ?_
    · change Recorded.mk (blockedSession.tree.tree.makeDirectories "/.stackprint").1 _ = _
      rw [hmake]
    · change (blockedSession.tree.tree.makeDirectories "/.stackprint").2 = _
      rw [hmake]
  · intro now document
    rw [atRoot_profilePath]
    refine ⟨"/.stackprint/profile.json", ?_⟩
    change (blockedSession.tree.tree.write now "/.stackprint/profile.json" document).2 = _
    have himplied : blockedSession.tree.tree.impliedDirectory "/.stackprint/profile.json" = none := by
      rw [MemoryTree.impliedDirectory, hprofile]
      rfl
    rw [MemoryTree.write, himplied]

/-- Though the cache was valid, the next call returns another profile: the earlier one. -/
theorem not_again_blocked :
    0 ≤ atRoot.lifetime.micros ∧
    ∃ p s', runs (atRoot.loadOrDetect true) blockedSession = (.ok p, s') ∧
      (atRoot.isValid blockedSession.tree blockedSession.now).result = .ok true ∧
      ∀ s'', runs (atRoot.loadOrDetect false) s' ≠ (.ok p, s'') := by
  refine ⟨by decide, ?_⟩
  have hload : (atRoot.load blockedSession.tree blockedSession.now).result =
      .ok (some lockedProfile) := by
    rw [sameCache_blockedSession.load]
    exact load_lockedSession _
  obtain ⟨d, hd⟩ := (scannable_recorded atRoot.project blockedSession.tree).detected
    blockedSession.now
  rcases atRoot.detectAgain_cases blockedSession with ⟨e, s₁, -, -, herror | herror⟩ |
    ⟨previous, scan, s₁, hquiet, -, -, hsave⟩
  · rw [hload] at herror
    cases herror
  · rw [Project.scan_announces] at herror
    rw [Project.detected, herror] at hd
    cases hd
  · obtain ⟨hdirectory, hwrite⟩ := blocked_paths
    rw [← hquiet.tree] at hdirectory hwrite
    obtain ⟨path, hfailed⟩ := hwrite s₁.clock (((scan.profile atRoot.project.directory
      blockedSession.now).carryFrom? previous).stamped s₁.now).document
    obtain ⟨s', hrun, htree, hmoment⟩ := saveIfPossible_unwritten (c := atRoot) (s := s₁)
      (by rw [hdirectory]) (by rw [hdirectory]; exact hfailed) rfl
    have hsame : s'.tree.tree = blockedSession.tree.tree := by
      rw [htree, hdirectory, Recorded.write_tree, ← hquiet.tree]
      exact MemoryTree.write_error hfailed
    have hnow : s'.now = blockedSession.now := (hquiet.moment.trans hmoment).now
    have hcache : atRoot.SameCache blockedSession.tree s'.tree := by
      have hread (path : String) :
          FileTree.read s'.tree path = FileTree.read blockedSession.tree path := by
        change FileTree.read s'.tree.tree path = _
        rw [hsame]
        rfl
      refine ⟨?_, hread _, hread _⟩
      change FileTree.contains s'.tree.tree _ = _
      rw [hsame]
      rfl
    have hvalid : (atRoot.isValid s'.tree s'.now).result = .ok true := by
      rw [isValid_congr hcache (by rw [checksum_recorded, hsame, checksum_recorded]), hnow]
      exact isValid_blockedSession
    obtain ⟨s₂, -, hhit⟩ := atRoot.loadOrDetect_of_valid hvalid
      (by rw [hcache.load, hnow]; exact hload)
    refine ⟨_, s', hsave.trans hrun, isValid_blockedSession, fun s'' hagain => ?_⟩
    have hprofile := Except.ok.inj (congrArg Prod.fst (hhit.symm.trans hagain))
    have htime : lockedProfile.detectedAt = s₁.now := congrArg Profile.detectedAt hprofile
    rw [hquiet.now] at htime
    exact absurd htime (by decide +kernel)

end Cache

end JavaProfile
