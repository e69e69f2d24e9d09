import JavaProfile.Proofs.Profile.Unlock
import JavaProfile.Proofs.Run.Plain

/-!
What the command that unlocks gives free. It takes back each lock that it is told, once: a field stays
protected by a group that was not named, or by its name when that was locked more often.
-/

namespace JavaProfile.Cache

open Work

section Renewing

variable {τ : Type} [FileTree τ] {c : Cache} {s : Session τ} {x : Profile} {f : Field}

theorem Renews.free (hf : f.Lockable) (h : c.Renews s x)
    (hfree : ∀ q, (c.load s.tree s.now).result = .ok (some q) → ¬ q.Protects f) :
    ∃ d, (runs c.project.detect s).1 = .ok d ∧ f.member.get x = f.member.get d := by
  obtain ⟨previous, fresh, hprevious, hfresh, rfl⟩ := h
  refine ⟨fresh, (c.project.detect_result s).trans hfresh, ?_⟩
  cases previous with
  | none => rfl
  | some q =>
    have hnot := hfree q (load_of_previous hprevious)
    rw [← Profile.keeps_iff_protects hf] at hnot
    change f.member.get (fresh.carryLockedFrom q) = _
    rw [Profile.get_carry, if_neg hnot]

end Renewing

variable {τ : Type} [FileTree τ] [LawfulTree τ] {c : Cache} {s : Session τ}
  {p q x : Profile} {now : Timestamp} {refresh : Bool}

theorem Renews.sameLocks (hload : (c.load s.tree now).result = .ok (some p))
    (h : c.Renews s x) : p.SameLocks x := by
  obtain ⟨q, hq, hsame⟩ := load_later hload s.now
  obtain ⟨previous, fresh, hprevious, hfresh, rfl⟩ := h
  rw [hq] at hprevious
  obtain rfl : some q = previous := Except.ok.inj hprevious
  exact (Profile.SameLocks.of_stamped hsame).trans
    (.carry (Project.detected_unlocked hfresh) q)

theorem loadOrDetect_sameLocks (hload : (c.load s.tree now).result = .ok (some p))
    (h : (runs (c.loadOrDetect refresh) s).1 = .ok q) : p.SameLocks q := by
  rcases loadOrDetect_returns h with ⟨-, -, hcached⟩ | ⟨-, x, hx, hq⟩
  · obtain ⟨q', hq', hsame⟩ := load_later hload s.now
    rw [hcached] at hq'
    obtain rfl : q = q' := Option.some.inj (Except.ok.inj hq')
    exact .of_stamped hsame
  · have hlocks := hx.sameLocks hload
    rcases hq with rfl | rfl
    · exact hlocks
    · exact hlocks.trans (.stamped x _)

variable [OverwritingTree τ]

/-- Where unlocking succeeds, a field is protected afterwards only by what the names left out, and
a new detection gives every other field the value it detects. -/
theorem unlock_frees {words names : List String} {i : Command.Invocation} {path : String}
    (hload : (c.load s.tree now).result = .ok (some p))
    (hread : Command.read words = .ok (.run i)) (hname : i.name = .unlock)
    (harguments : i.words.arguments = path :: names)
    (hreal : FileTree.realPath s.tree path = .ok c.project.directory)
    (hstatus : ((Command.run words).run s).1.status = 0) :
    ∃ targets, Command.lockTargets names = .ok targets ∧ ∀ f : Field, f.Lockable →
      (∀ later q, (c.load ((Command.run words).run s).2.tree later).result = .ok (some q) →
        (q.Protects f ↔ p.Remains targets f)) ∧
      ∀ (user : Cache) (s' : Session τ) (r : Profile),
        user.project.directory = c.project.directory →
        c.SameCache ((Command.run words).run s).2.tree s'.tree →
        (runs (user.loadOrDetect true) s').1 = .ok r → ¬ p.Remains targets f →
        ∃ d, (runs user.project.detect s').1 = .ok d ∧ f.member.get r = f.member.get d := by
  have hunlocks : i.name.changesLocks = some false := by
    rw [hname]
    rfl
  obtain ⟨targets, text, htargets, hupdate⟩ :=
    Command.run_succeeds hread hunlocks harguments hreal hstatus
  obtain ⟨opened, p₁, q₁, s₁, hcache, hfirst, hsave⟩ := Command.updateLocks_succeeds hupdate
  have hdirectory : opened.project.directory = c.project.directory :=
    Command.directory_of_settings hcache
  refine ⟨targets, htargets, fun f hf => ?_⟩
  have hprotects : ∀ later q,
      (c.load ((Command.run words).run s).2.tree later).result = .ok (some q) →
      (q.Protects f ↔ p.Remains targets f) := by
    intro later q hq
    have hloaded := hload
    rw [← load_congr hdirectory] at hloaded hq
    have hlocks : p.SameLocks p₁ := loadOrDetect_sameLocks hloaded (by rw [hfirst])
    have hstorable : p₁.Storable := loadOrDetect_storable (by rw [hfirst])
    set a : Save τ := ⟨s₁, targets.foldl (fun p t => t.setLocked false p) p₁⟩
    have hafter : a.after opened = ((Command.run words).run s).2 := by
      rw [Save.after, hsave]
    have hstores : a.stores opened = true := by
      rcases opened.save_cases a.profile a.before with ⟨e, -, herror⟩ | ⟨e, s₂, -, herror⟩ |
        ⟨s₂, hstores, -, -⟩
      · rw [hsave] at herror
        cases herror
      · rw [hsave] at herror
        cases herror
      · exact Save.stores_iff.mpr hstores
    rw [← hafter] at hq
    obtain rfl := Save.load_stored (LockTarget.storable_foldl false targets hstorable) hstores hq
    rw [(Profile.SameLocks.stamped _ _).protects, LockTarget.protects_unlockAll, hlocks.remains]
  refine ⟨hprotects, fun user s' r huser hcache hr hfree => ?_⟩
  have hnot : ∀ q, (user.load s'.tree s'.now).result = .ok (some q) → ¬ q.Protects f := by
    intro q hq
    rw [load_congr huser, hcache.load] at hq
    rw [hprotects s'.now q hq]
    exact hfree
  rcases loadOrDetect_returns hr with ⟨hrefresh, -⟩ | ⟨-, x, hx, hrx⟩
  · cases hrefresh
  · obtain ⟨d, hd, hvalue⟩ := hx.free hf hnot
    refine ⟨d, hd, ?_⟩
    rcases hrx with rfl | rfl
    · exact hvalue
    · rw [Profile.get_stamped hf.ne_detectedAt]
      exact hvalue

/-! ### Keys that are locked -/

open MemoryTree

def keyedProfile : Profile :=
  { Profile.standard (.ofClock (.double 0.0)) with idType := "UUID", idLocked := true }

theorem storable_keyedProfile : keyedProfile.Storable :=
  ⟨rfl, by decide, by decide⟩

/-- A project with numbers for keys, and a valid cache that says otherwise. -/
def keyedSession (k : String) : Session MemoryTree where
  tree := cached plainSource plainTest ⟨keyedProfile.document, .int 0⟩ ⟨k, .int 0⟩
  clock := 60.0

theorem load_keyedSession (k : String) (now : Timestamp) :
    (atRoot.load (keyedSession k).tree now).result = .ok (some keyedProfile) :=
  load_cached storable_keyedProfile

theorem lockable_idType : Field.Lockable .idType := by
  refine ⟨by decide, by decide, fun g => ?_⟩
  cases g <;> decide

theorem idType_plain (now : Timestamp) :
    ((plainScan plainSource plainTest).profile atRoot.project.directory now).idType = "Long" := by
  have hkeys : (plainScan plainSource plainTest).keyType.name = "Long" := by decide +kernel
  exact hkeys

/-- Unlocking a name of the keys in that session, and detecting anew. -/
theorem unlock_keyed {k : String} (hk : plainChecksum plainSource = .ok k) {name : String}
    {targets : List LockTarget}
    (hread : Command.read ["unlock", "/", name] = .ok (.run ⟨.unlock, [], ["/", name]⟩))
    (htargets : Command.lockTargets [name] = .ok targets) :
    ((Command.run ["unlock", "/", name]).run (keyedSession k)).1.status = 0 ∧
      ∃ q r s', (∀ later, (atRoot.load ((Command.run ["unlock", "/", name]).run
          (keyedSession k)).2.tree later).result = .ok (some q)) ∧
        q = (targets.foldl (fun p t => t.setLocked false p) keyedProfile).stamped
          (keyedSession k).now ∧
        runs (atRoot.loadOrDetect true)
          ((Command.run ["unlock", "/", name]).run (keyedSession k)).2 = (.ok r, s') ∧
        (r.idType = if q.keeps .idType then q.idType else "Long") ∧
        ∃ d, (runs atRoot.project.detect
          ((Command.run ["unlock", "/", name]).run (keyedSession k)).2).1 = .ok d ∧
          d.idType = "Long" := by
  have hfresh : atRoot.isStale keyedProfile (.ofClock (.double 60.0)) = false := by
    decide +kernel
  obtain ⟨hstatus, hmoment, htree⟩ := locks_cached hk (i := ⟨.unlock, [], ["/", name]⟩) hread rfl
    rfl (List.cons_ne_nil _ _) htargets storable_keyedProfile hfresh
    (s := keyedSession k) rfl rfl
  have hstorable := (LockTarget.storable_foldl false targets storable_keyedProfile).stamped
    (keyedSession k).now
  obtain ⟨r, s', hrun, -, hr, -⟩ := detectAgain_cached hk hstorable htree
  refine ⟨hstatus, _, r, s', fun later => ?_, rfl, hrun, ?_, ?_⟩
  · rw [htree]
    exact load_cached hstorable
  · set before := ((Command.run ["unlock", "/", name]).run (keyedSession k)).2
    set q := (targets.foldl (fun p t => t.setLocked false p) keyedProfile).stamped
      (keyedSession k).now
    have hget : (((plainScan plainSource plainTest).profile atRoot.project.directory
        before.now).carryLockedFrom q).idType = _ := Profile.get_carry _ q .idType
    rw [hr]
    change (((plainScan plainSource plainTest).profile atRoot.project.directory
      before.now).carryLockedFrom q).idType = _
    rw [hget]
    change (if q.keeps .idType then q.idType else ((plainScan plainSource plainTest).profile
      atRoot.project.directory before.now).idType) = _
    rw [idType_plain]
  · refine ⟨_, ?_, idType_plain ((Command.run ["unlock", "/", name]).run (keyedSession k)).2.now⟩
    rw [Project.detect_result, htree]
    exact detected_cached _ _ _ _ _

theorem unlock_frees_id :
    ∃ k q r s', plainChecksum plainSource = .ok k ∧
      ((Command.run ["unlock", "/", "id"]).run (keyedSession k)).1.status = 0 ∧
      (∀ later, (atRoot.load ((Command.run ["unlock", "/", "id"]).run (keyedSession k)).2.tree
        later).result = .ok (some q)) ∧ ¬ q.Protects .idType ∧
      runs (atRoot.loadOrDetect true)
        ((Command.run ["unlock", "/", "id"]).run (keyedSession k)).2 = (.ok r, s') ∧
      ∃ d, (runs atRoot.project.detect
        ((Command.run ["unlock", "/", "id"]).run (keyedSession k)).2).1 = .ok d ∧
        r.idType = d.idType := by
  obtain ⟨k, hk⟩ := hashed_plain
  have hread : Command.read ["unlock", "/", "id"] = .ok (.run ⟨.unlock, [], ["/", "id"]⟩) := by
    decide +kernel
  have htargets : Command.lockTargets ["id"] = .ok [.group .id] := by decide +kernel
  obtain ⟨hstatus, q, r, s', hload, -, hrun, -, -⟩ := unlock_keyed hk hread htargets
  have hreal : FileTree.realPath (keyedSession k).tree "/" = .ok atRoot.project.directory := by
    have habsolute : (Path.ofString "/").absolute = ⟨.single, []⟩ := by decide +kernel
    exact congrArg Except.ok habsolute
  obtain ⟨targets, htargets', hfrees⟩ := unlock_frees (load_keyedSession k (keyedSession k).now)
    hread rfl rfl hreal hstatus
  obtain rfl : [LockTarget.group .id] = targets := Except.ok.inj (htargets.symm.trans htargets')
  obtain ⟨hprotects, hvalue⟩ := hfrees .idType lockable_idType
  have hremains : ¬ keyedProfile.Remains [.group .id] .idType := by
    rintro (⟨g, hlocked, -, hnot⟩ | hcount)
    · cases g with
      | id => exact hnot List.mem_cons_self
      | _ => cases hlocked
    · exact absurd hcount (by decide)
  obtain ⟨d, hd, heq⟩ := hvalue atRoot _ r rfl ⟨rfl, rfl, rfl⟩ (congrArg Prod.fst hrun) hremains
  exact ⟨k, q, r, s', hk, hstatus, hload, fun h =>
    hremains ((hprotects .first q (hload _)).mp h), hrun, d, hd, heq⟩

/-- The command unlocks a name without a word of the group that still protects it. -/
theorem unlock_leaves_idType :
    ∃ k q r s', plainChecksum plainSource = .ok k ∧
      (atRoot.load (keyedSession k).tree (keyedSession k).now).result = .ok (some keyedProfile) ∧
      ((Command.run ["unlock", "/", "id_type"]).run (keyedSession k)).1.status = 0 ∧
      (∀ later, (atRoot.load ((Command.run ["unlock", "/", "id_type"]).run
        (keyedSession k)).2.tree later).result = .ok (some q)) ∧ q.Protects .idType ∧
      runs (atRoot.loadOrDetect true)
        ((Command.run ["unlock", "/", "id_type"]).run (keyedSession k)).2 = (.ok r, s') ∧
      ∃ d, (runs atRoot.project.detect
        ((Command.run ["unlock", "/", "id_type"]).run (keyedSession k)).2).1 = .ok d ∧
        r.idType ≠ d.idType := by
  obtain ⟨k, hk⟩ := hashed_plain
  have hread : Command.read ["unlock", "/", "id_type"] =
      .ok (.run ⟨.unlock, [], ["/", "id_type"]⟩) := by
    decide +kernel
  have htargets : Command.lockTargets ["id_type"] = .ok [.field .idType] := by decide +kernel
  obtain ⟨hstatus, q, r, s', hload, rfl, hrun, hvalue, d, hd, hlong⟩ :=
    unlock_keyed hk hread htargets
  have hkeeps : (([LockTarget.field .idType].foldl (fun p t => t.setLocked false p)
      keyedProfile).stamped (keyedSession k).now).Protects .idType :=
    .inl ⟨.id, rfl, List.mem_cons_self⟩
  rw [if_pos (Profile.keeps_of_protects hkeeps)] at hvalue
  refine ⟨k, _, r, s', hk, load_keyedSession k _, hstatus, hload, hkeeps, hrun, d, hd, ?_⟩
  rw [hvalue, hlong]
  change ("UUID" : String) ≠ "Long"
  decide

end JavaProfile.Cache
