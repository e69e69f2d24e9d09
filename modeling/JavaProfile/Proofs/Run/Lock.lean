import JavaProfile.Proofs.Command.Lock
import JavaProfile.Proofs.Store.Linked

/-!
Runs of a project: its profile is loaded or detected, its locks are changed, its files are edited and
its clock moves, in any order. A field that is protected keeps its value over all of them until it is
unlocked.
-/

namespace JavaProfile.Cache

open Work

variable {τ : Type} [FileTree τ]

/-- The profiles that a call has returned. -/
def returned : Except Failure Profile → List Profile
  | .ok p => [p]
  | .error _ => []

/-- What may happen to the project of a cache, with the profiles that are returned, as long as the
field is not unlocked. -/
inductive Step (c : Cache) (f : Field) :
    Session (Recorded τ) → List Profile → Session (Recorded τ) → Prop where
  /-- Any cache of the project, whatever its source roots and its lifetime are. -/
  | loadOrDetect (user : Cache) (refresh : Bool) (s : Session (Recorded τ))
      (hproject : user.project.directory = c.project.directory) :
      Step c f s (returned (runs (user.loadOrDetect refresh) s).1)
        (runs (user.loadOrDetect refresh) s).2
  /-- A command line that locks or unlocks. -/
  | command (words : List String) (i : Command.Invocation) (locked : Bool)
      (s : Session (Recorded τ)) (hread : Command.read words = .ok (.run i))
      (hname : i.name.changesLocks = some locked)
      (hproject : ∀ path names, i.words.arguments = path :: names →
        FileTree.realPath s.tree path = .ok c.project.directory)
      (hnames : locked = true ∨ ∀ path names targets, i.words.arguments = path :: names →
        Command.lockTargets names = .ok targets → ∀ target ∈ targets, ¬ target.Names f) :
      Step c f s [] ((Command.run words).run s).2
  /-- Any other tree, as long as the document of the profile is the same. -/
  | edit (t : τ) (s : Session (Recorded τ))
      (hprofile : FileTree.read t c.profilePath.text =
        FileTree.read s.tree.tree c.profilePath.text) :
      Step c f s [] { s with tree := { s.tree with tree := t } }
  | clock (x : Float) (s : Session (Recorded τ)) : Step c f s [] { s with clock := x }

/-- Any number of steps, after each of which every write has succeeded and the tree is as `P`
says. -/
inductive Run (c : Cache) (f : Field) (P : Recorded τ → Prop) :
    Session (Recorded τ) → List Profile → Session (Recorded τ) → Prop where
  | start (s : Session (Recorded τ)) : Run c f P s [] s
  | next {s s' s'' : Session (Recorded τ)} {ps qs : List Profile} (hrun : Run c f P s ps s')
      (hstep : Step c f s' qs s'') (hwritten : s''.tree.AllWritten) (htree : P s''.tree) :
      Run c f P s (ps ++ qs) s''

variable [LawfulTree τ] {c : Cache} {f : Field} {v : f.member.Value} {p : Profile}
  {s s' : Session (Recorded τ)} {ps : List Profile} {base : List WriteRecord}

theorem mem_returned {q : Profile} {result : Except Failure Profile} (h : q ∈ returned result) :
    result = .ok q := by
  cases result with
  | ok p =>
    obtain rfl := List.mem_singleton.mp h
    rfl
  | error e => cases h

theorem Step.kept (hf : f.Lockable) (hkept : c.Kept f v base s) (hstep : Step c f s ps s')
    (hwritten : s'.tree.AllWritten) (hapart : c.Apart s'.tree) :
    c.Kept f v base s' ∧ ∀ q ∈ ps, q.Holds f v := by
  cases hstep with
  | loadOrDetect user refresh _ hproject =>
    obtain ⟨hlater, hresult⟩ := loadOrDetect_kept hf (hkept.congr hproject.symm) refresh hwritten
      (hapart.congr hproject.symm)
    exact ⟨hlater.congr hproject, fun q hq => (hresult q (mem_returned hq)).2⟩
  | command words i locked _ hread hname hproject hnames =>
    refine ⟨?_, fun q hq => by cases hq⟩
    rcases Command.run_locks hread hname hproject with
      hstate | ⟨path, names, targets, harguments, htargets, hstate⟩
    · rw [hstate]
      exact hkept
    · rw [hstate] at hwritten hapart ⊢
      exact Command.updateLocks_kept hf hkept
        (hnames.imp_right fun hnot => hnot path names targets harguments htargets) hwritten hapart
  | edit t _ hprofile =>
    obtain ⟨⟨text, hread, hdocument⟩, hrecords⟩ := hkept
    exact ⟨⟨⟨text, hprofile.trans hread, hdocument⟩, hrecords⟩, fun q hq => by cases hq⟩
  | clock x _ => exact ⟨hkept.of_tree rfl, fun q hq => by cases hq⟩

theorem Run.kept (hf : f.Lockable) (hrun : Run c f c.Apart s ps s')
    (hkept : c.Kept f v base s) : c.Kept f v base s' ∧ ∀ q ∈ ps, q.Holds f v := by
  induction hrun with
  | start => exact ⟨hkept, fun q hq => by cases hq⟩
  | next hrun hstep hwritten hapart ih =>
    obtain ⟨hbefore, hreturned⟩ := ih
    obtain ⟨hafter, hlast⟩ := hstep.kept hf hbefore hwritten hapart
    refine ⟨hafter, fun q hq => ?_⟩
    rcases List.mem_append.mp hq with hq | hq
    · exact hreturned q hq
    · exact hlast q hq

/-- A field that the cached profile protects has the same value, and is protected, in all profiles
that a run returns, in all that it writes and in the one it leaves in the cache. -/
theorem Run.keeps_locked (hf : f.Lockable) {now : Timestamp}
    (hload : (c.load s.tree now).result = .ok (some p)) (hprotects : p.Protects f)
    (hrun : Run c f c.Apart s ps s') :
    (∀ q ∈ ps, q.Holds f (f.member.get p)) ∧
      (∃ new, s'.tree.writes = s.tree.writes ++ new ∧
        ∀ w ∈ new, w.path = c.profilePath.text → c.Document f (f.member.get p) w.data) ∧
      ∀ later, ∃ q, (c.load s'.tree later).result = .ok (some q) ∧
        q.Holds f (f.member.get p) := by
  obtain ⟨text, hread, hparse⟩ := load_ok hload
  have hdocument : c.Document f (f.member.get p) text :=
    document_of_parse hf hparse ⟨rfl, hprotects⟩
  have hstart : c.Kept f (f.member.get p) s.tree.writes s :=
    ⟨⟨text, hread, hdocument⟩, [], (List.append_nil _).symm, fun w hw => by cases hw⟩
  obtain ⟨hkept, hreturned⟩ := hrun.kept hf hstart
  refine ⟨hreturned, hkept.written, fun later => ?_⟩
  obtain ⟨q, hq, -, hholds⟩ := hkept.load later
  exact ⟨q, hq, hholds⟩

def lockedProfile : Profile :=
  { Profile.standard (.ofClock (.double 0.0)) with architectureLocked := true }

theorem storable_lockedProfile : lockedProfile.Storable :=
  ⟨rfl, by decide, by decide⟩

theorem protects_lockedProfile : lockedProfile.Protects .architecture :=
  .inl ⟨.architecture, rfl, by decide⟩

/-- A session with a cache in memory that is valid, and its architecture locked. -/
def lockedSession : Session (Recorded MemoryTree) where
  tree :=
    ⟨{ files := [(MemoryTree.key "/.stackprint/profile.json", ⟨lockedProfile.document, .int 0⟩),
        (MemoryTree.key "/.stackprint/checksum", ⟨emptyChecksum, .int 0⟩)] }, []⟩
  clock := 0.0

theorem load_lockedSession (now : Timestamp) :
    (atRoot.load lockedSession.tree now).result = .ok (some lockedProfile) := by
  have hread : FileTree.read lockedSession.tree atRoot.profilePath.text =
      .ok lockedProfile.document := by
    rw [atRoot_profilePath]
    change lockedSession.tree.tree.read "/.stackprint/profile.json" = _
    rw [MemoryTree.read_eq, lockedSession, List.lookup_cons, beq_self_eq_true]
  rw [load_of_read hread, parse_document storable_lockedProfile]
  rfl

theorem isValid_lockedSession :
    (atRoot.isValid lockedSession.tree (.ofClock (.double 60.0))).result = .ok true := by
  have hchecksum : FileTree.read lockedSession.tree atRoot.checksumPath.text =
      .ok emptyChecksum := by
    rw [atRoot_checksumPath]
    change lockedSession.tree.tree.read "/.stackprint/checksum" = _
    have hne : (MemoryTree.key "/.stackprint/checksum" ==
      MemoryTree.key "/.stackprint/profile.json") = false := by decide +kernel
    rw [MemoryTree.read_eq, lockedSession, List.lookup_cons, hne, List.lookup_cons,
      beq_self_eq_true]
  have hsources : FileTree.isDirectory lockedSession.tree "/src/main/java" = .ok false := by
    change Except.ok (lockedSession.tree.tree.hasDirectory (MemoryTree.key "/src/main/java")) = _
    have hroot : ([⟨.single, []⟩] : List Path).contains (MemoryTree.key "/src/main/java") = false := by
      decide +kernel
    exact congrArg Except.ok hroot
  have hmatches : atRoot.matchesSources lockedSession.tree = .ok true := by
    have htrim : String.ofList (Text.trim emptyChecksum.toList) = emptyChecksum := by
      decide +kernel
    rw [matchesSources, hchecksum, checksum_of_missing hsources]
    change Except.ok (decide (String.ofList (Text.trim emptyChecksum.toList) = emptyChecksum)) = _
    rw [decide_eq_true htrim]
  have hfresh : atRoot.isStale lockedProfile (.ofClock (.double 60.0)) = false := by
    decide +kernel
  rw [isValid_result, load_lockedSession]
  dsimp only
  rw [hfresh, if_neg Bool.false_ne_true, hmatches]
  rfl

/-- A minute later the cached profile is returned, and is still there. -/
theorem keeps_locked_cached :
    ∃ s', Run atRoot .architecture atRoot.Apart lockedSession [lockedProfile] s' ∧
      lockedProfile.Holds .architecture .layered ∧
      ∀ later, ∃ q, (atRoot.load s'.tree later).result = .ok (some q) ∧
        q.Holds .architecture .layered := by
  have hload := load_lockedSession (.ofClock (.double 60.0))
  obtain ⟨s', hquiet, hruns⟩ := atRoot.loadOrDetect_of_valid
    (s := { lockedSession with clock := 60.0 }) isValid_lockedSession hload
  have hstep : Step atRoot .architecture { lockedSession with clock := 60.0 }
      (returned (runs (atRoot.loadOrDetect false) { lockedSession with clock := 60.0 }).1)
      (runs (atRoot.loadOrDetect false) { lockedSession with clock := 60.0 }).2 :=
    .loadOrDetect atRoot false _ rfl
  have hrun : Run atRoot .architecture atRoot.Apart lockedSession [lockedProfile] s' := by
    have hwritten : lockedSession.tree.AllWritten := fun w hw => by cases hw
    have hapart : atRoot.Apart lockedSession.tree := atRoot.apart_of_memory lockedSession.tree.tree
    have hclock : Run atRoot .architecture atRoot.Apart lockedSession []
        { lockedSession with clock := 60.0 } :=
      .next (.start _) (.clock 60.0 lockedSession) hwritten hapart
    rw [hruns] at hstep
    refine .next hclock hstep ?_ ?_
    · rw [hquiet.tree]
      exact hwritten
    · rw [hquiet.tree]
      exact hapart
  have hlockable : Field.Lockable .architecture := by
    refine ⟨by decide, by decide, fun g => ?_⟩
    cases g <;> decide
  obtain ⟨hreturned, -, hcached⟩ :=
    Run.keeps_locked hlockable (load_lockedSession lockedSession.now) protects_lockedProfile hrun
  exact ⟨s', hrun, hreturned lockedProfile (List.mem_singleton.mpr rfl), hcached⟩

/-! ### A checksum that is a link -/

theorem not_protects_scan (scan : Scan) (directory : Path) (now t : Timestamp) (f : Field) :
    ¬ ((scan.profile directory now).stamped t).Protects f := by
  rintro (⟨g, hlocked, -⟩ | hname)
  · cases g <;> cases hlocked
  · cases hname

/-- A session on a disk with a locked profile, where the checksum is a link to it. -/
def lockedLinkedSession : Session (Recorded DiskTree) where
  tree := written ⟨DiskTree.linkedDisk, []⟩ "/.stackprint/profile.json" lockedProfile.document
  clock := 0.0

/-- Where the checksum is a link to the profile, the second detection forgets the locks. -/
theorem locks_lost_linked :
    (atRoot.load lockedLinkedSession.tree lockedLinkedSession.now).result =
        .ok (some lockedProfile) ∧
      lockedProfile.Protects .architecture ∧
      ∃ ps s', Run atRoot .architecture (fun _ => True) lockedLinkedSession ps s' ∧
        ∃ q ∈ ps, ¬ q.Protects .architecture := by
  have hlinked : lockedLinkedSession.tree.tree.Linked := DiskTree.linkedDisk_linked.put _
  have hread : FileTree.read lockedLinkedSession.tree atRoot.profilePath.text =
      .ok lockedProfile.document := by
    rw [atRoot_profilePath]
    refine (DiskTree.linkedDisk_linked.read_put _).trans ?_
    rw [Text.decode_encode, Text.unifyBreaks_of_notMem storable_lockedProfile.notMem_document,
      String.ofList_toList]
  have hload : (atRoot.load lockedLinkedSession.tree lockedLinkedSession.now).result =
      .ok (some lockedProfile) := by
    rw [load_of_read hread, parse_document storable_lockedProfile]
    rfl
  have hprevious : previousOf (atRoot.load lockedLinkedSession.tree lockedLinkedSession.now).result =
      .ok (some lockedProfile) := by
    rw [hload]
    rfl
  obtain ⟨r, s₁, hr, hwritten, htree, hfirst⟩ := detectAgain_of_linked hlinked hprevious
  have hlinked₁ : s₁.tree.tree.Linked := by
    rw [htree]
    exact hr.put _
  have hnone : previousOf (atRoot.load s₁.tree s₁.now).result = .ok none := by
    obtain ⟨fault, hfault⟩ := load_emptyChecksum hr "/.stackprint/checksum" s₁.now
    rw [htree, hfault]
    rfl
  obtain ⟨r', s₂, -, hwritten', -, hsecond⟩ := detectAgain_of_linked hlinked₁ hnone
  have hall : lockedLinkedSession.tree.AllWritten := by
    intro w hw
    obtain rfl := List.mem_singleton.mp hw
    rfl
  have hstep : Step atRoot .architecture lockedLinkedSession
      (returned (runs atRoot.detectAgain lockedLinkedSession).1)
      (runs atRoot.detectAgain lockedLinkedSession).2 :=
    .loadOrDetect atRoot true lockedLinkedSession rfl
  have hstep' : Step atRoot .architecture s₁ (returned (runs atRoot.detectAgain s₁).1)
      (runs atRoot.detectAgain s₁).2 :=
    .loadOrDetect atRoot true s₁ rfl
  rw [hfirst] at hstep
  rw [hsecond] at hstep'
  refine ⟨hload, protects_lockedProfile, _, s₂,
    .next (.next (.start _) hstep (hwritten hall) trivial) hstep' (hwritten' (hwritten hall)) trivial,
    _, List.mem_append_right _ (List.mem_singleton.mpr rfl), ?_⟩
  exact not_protects_scan _ _ _ _ _

end JavaProfile.Cache
