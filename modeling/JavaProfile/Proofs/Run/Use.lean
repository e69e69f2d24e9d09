import JavaProfile.Proofs.Project.Beside
import JavaProfile.Proofs.Store.Whole

/-!
Runs of one cache: its profile is loaded or detected, the project is edited and the clock moves, in
any order. What is returned is what a call of the run detected, and the main sources still hold
what they held then.
-/

namespace JavaProfile.Cache

open Work

variable {τ : Type} [FileTree τ]

/-- A call to load or detect the profile of a project. -/
structure Call (τ : Type) where
  before : Session τ
  refresh : Bool

namespace Call

variable (c : Cache) (a : Call τ)

def result : Except Failure Profile :=
  (runs (c.loadOrDetect a.refresh) a.before).1

def after : Session τ :=
  (runs (c.loadOrDetect a.refresh) a.before).2

/-- The call returns what is detected in the tree that it was made in. -/
structure Detects (p : Profile) : Prop where
  result : a.result c = .ok p
  detected : c.project.detected a.before.tree a.before.now = .ok p

end Call

/-- What holds of the trees of a run: they can be scanned and hashed, the cache can be written, and
the main sources hold the same wherever their checksum is the same. -/
structure Moments (c : Cache) (M : τ → Prop) : Prop where
  scannable {t : τ} (h : M t) : c.project.Scannable t
  hashed {t : τ} (h : M t) : ∃ k, c.project.checksum t = .ok k
  writable {t : τ} (h : M t) : c.Writable t
  distinct {t t' : τ} {k : String} (h : M t) (h' : M t') (hk : c.project.checksum t = .ok k)
    (hk' : c.project.checksum t' = .ok k) :
    c.project.contents t' .main = c.project.contents t .main

/-- What may happen from a session on, with the calls that were made, the last one first. -/
inductive Uses (c : Cache) (M : τ → Prop) (s : Session τ) : List (Call τ) → Session τ → Prop where
  | start (hmoment : M s.tree) : Uses c M s [] s
  | call {calls : List (Call τ)} {s' : Session τ} (refresh : Bool) (huses : Uses c M s calls s')
      (hmoment : M (Call.after c ⟨s', refresh⟩).tree) :
      Uses c M s (⟨s', refresh⟩ :: calls) (Call.after c ⟨s', refresh⟩)
  /-- Any other tree with the same cache. -/
  | edit {calls : List (Call τ)} {s' : Session τ} (t : τ) (huses : Uses c M s calls s')
      (hcache : c.SameCache s'.tree t) (hmoment : M t) : Uses c M s calls { s' with tree := t }
  | clock {calls : List (Call τ)} {s' : Session τ} (x : Float) (huses : Uses c M s calls s') :
      Uses c M s calls { s' with clock := x }

/-- There is no cache, or one that a call of a run has left. -/
def Faithful (c : Cache) (M : τ → Prop) (calls : List (Call τ)) (s : Session τ) : Prop :=
  c.isPresent s.tree = .ok false ∨
    ∃ a ∈ calls, ∃ p k, a.Detects c p ∧ M a.before.tree ∧
      c.project.checksum a.before.tree = .ok k ∧ c.Saved p k s.tree

/-- A call returns what it or an earlier call detected, and the main sources hold what they held
before that one. -/
def Call.Current (c : Cache) (calls : List (Call τ)) (b : Call τ) : Prop :=
  ∃ a ∈ b :: calls, ∃ p, a.Detects c p ∧ b.result c = .ok p ∧
    c.project.contents (b.after c).tree .main = c.project.contents a.before.tree .main

variable {c : Cache} {M : τ → Prop} {calls : List (Call τ)} {s s' : Session τ}

theorem Uses.moment (huses : Uses c M s calls s') : M s'.tree := by
  induction huses with
  | start hmoment => exact hmoment
  | call _ _ hmoment => exact hmoment
  | edit _ _ _ hmoment => exact hmoment
  | clock _ _ ih => exact ih

theorem Call.after_eq {a : Call τ} {r : Except Failure Profile}
    (h : runs (c.loadOrDetect a.refresh) a.before = (r, s')) : a.after c = s' := by
  rw [Call.after, h]

theorem Call.result_eq {a : Call τ} {r : Except Failure Profile}
    (h : runs (c.loadOrDetect a.refresh) a.before = (r, s')) : a.result c = r := by
  rw [Call.result, h]

theorem Call.of_absent {p : Profile} {k : String} (hwritable : c.Writable s.tree)
    (hp : c.project.detected s.tree s.now = .ok p) (habsent : c.isPresent s.tree = .ok false)
    (hk : c.project.checksum (c.stored s.tree s.clock p.document) = .ok k) :
    Call.result c ⟨s, false⟩ = .ok p ∧
      (Call.after c ⟨s, false⟩).tree = c.sealed s.tree s.clock p.document k ∧
      (Call.after c ⟨s, false⟩).clock = s.clock := by
  obtain ⟨s', hrun, htree, hclock⟩ := hwritable.loadOrDetect_runs hp habsent hk false
  rw [Call.result_eq hrun, Call.after_eq hrun]
  exact ⟨rfl, htree, hclock⟩

theorem Call.of_saved [LawfulTree τ] {p : Profile} {k : String} (h : c.Saved p k s.tree)
    (hread : FileTree.read s.tree c.profilePath.text = .ok p.document)
    (hcurrent : c.project.checksum s.tree = .ok k) (hfresh : c.isStale p s.now = false) :
    Call.result c ⟨s, false⟩ = .ok p ∧ (Call.after c ⟨s, false⟩).tree = s.tree ∧
      (Call.after c ⟨s, false⟩).clock = s.clock := by
  obtain ⟨hload, hvalid⟩ := h.fresh hread hcurrent hfresh
  rcases c.loadOrDetect_cases s false with ⟨e, s', -, -, -, herror | ⟨-, herror⟩⟩ |
    ⟨q, s', hquiet, hrun, -, -, hload'⟩ | ⟨s', -, -, hfalse | hfalse | hnone⟩
  · rw [hvalid] at herror
    cases herror
  · rw [hload] at herror
    cases herror
  · rw [hload] at hload'
    obtain rfl : p = q := Option.some.inj (Except.ok.inj hload')
    rw [Call.result_eq hrun, Call.after_eq hrun]
    exact ⟨rfl, hquiet.tree, hquiet.clock⟩
  · cases hfalse
  · rw [hvalid] at hfalse
    cases hfalse
  · rw [hload] at hnone
    cases hnone

variable [LawfulTree τ]

theorem Faithful.previous (h : Faithful c M calls s) :
    ∃ previous, previousOf (c.load s.tree s.now).result = .ok previous ∧
      ∀ q, previous = some q → q.Unlocked := by
  rcases h with habsent | ⟨a, -, p, k, hdetects, -, -, hsaved⟩
  · refine ⟨none, ?_, fun q hq => by cases hq⟩
    rw [load_of_absent habsent]
    rfl
  · rcases hsaved.previous s.now with hprevious | hprevious
    · refine ⟨some p, hprevious, fun q hq => ?_⟩
      rw [← Option.some.inj hq]
      exact Project.detected_unlocked hdetects.detected
    · exact ⟨none, hprevious, fun q hq => by cases hq⟩

theorem Faithful.isValid (hM : c.Moments M) (hs : M s.tree) (h : Faithful c M calls s) :
    ∃ valid, (c.isValid s.tree s.now).result = .ok valid ∧
      (valid = true → ∃ a ∈ calls, ∃ p k, a.Detects c p ∧ M a.before.tree ∧
        c.project.checksum a.before.tree = .ok k ∧ c.project.checksum s.tree = .ok k ∧
        c.Saved p k s.tree ∧ (c.load s.tree s.now).result = .ok (some p)) := by
  rcases h with habsent | ⟨a, ha, p, k, hdetects, hmoment, hk, hsaved⟩
  · rw [isValid_result, load_of_absent habsent]
    exact ⟨false, rfl, nofun⟩
  · obtain ⟨current, hcurrent⟩ := hM.hashed hs
    obtain ⟨valid, hvalid, hwhen⟩ := hsaved.isValid hcurrent s.now
    refine ⟨valid, hvalid, fun htrue => ?_⟩
    obtain ⟨hload, -, rfl⟩ := hwhen htrue
    exact ⟨a, ha, p, k, hdetects, hmoment, hk, hcurrent, hsaved, hload⟩

variable [OverwritingTree τ]

theorem Faithful.call (hM : c.Moments M) (hs : M s.tree) (haside : c.Aside s.tree)
    (h : Faithful c M calls s) (refresh : Bool) :
    Call.Current c calls ⟨s, refresh⟩ ∧
      Faithful c M (⟨s, refresh⟩ :: calls) (Call.after c ⟨s, refresh⟩) := by
  obtain ⟨previous, hprevious, hunlocked⟩ := h.previous
  obtain ⟨valid, hresult, hwhen⟩ := h.isValid hM hs
  rcases c.loadOrDetect_cases s refresh with ⟨e, s', hquiet, hrun, -, herror⟩ |
    ⟨q, s', hquiet, hrun, -, hvalid, hload⟩ | ⟨s', hquiet, hrun, -⟩
  · exfalso
    rcases herror with herror | ⟨hvalid, herror⟩
    · rw [hresult] at herror
      cases herror
    · rw [hresult] at hvalid
      obtain ⟨-, -, p, k, -, -, -, -, -, hload⟩ := hwhen (Except.ok.inj hvalid)
      rw [hload] at herror
      cases herror
  · rw [hresult] at hvalid
    obtain ⟨a, ha, p, k, hdetects, hmoment, hk, hcurrent, hsaved, hload'⟩ :=
      hwhen (Except.ok.inj hvalid)
    rw [hload] at hload'
    obtain rfl : q = p := Option.some.inj (Except.ok.inj hload')
    have hafter : Call.after c ⟨s, refresh⟩ = s' := congrArg Prod.snd hrun
    refine ⟨⟨a, List.mem_cons_of_mem _ ha, q, hdetects, congrArg Prod.fst hrun, ?_⟩,
      .inr ⟨a, List.mem_cons_of_mem _ ha, q, k, hdetects, hmoment, hk, ?_⟩⟩
    · rw [hafter, hquiet.tree]
      exact hM.distinct hmoment hs hk hcurrent
    · rw [hafter, hquiet.tree]
      exact hsaved
  · obtain ⟨p, hp⟩ := (hM.scannable hs).detected s.now
    obtain ⟨k, hk⟩ := hM.hashed hs
    have hstored : c.project.checksum (c.stored s.tree s.clock p.document) = .ok k := by
      rw [haside.checksum, hk]
    obtain ⟨s'', hagain, htree, -⟩ :=
      (hM.writable hs).detectAgain_runs hquiet hp hprevious hunlocked hstored
    have hresult : Call.result c ⟨s, refresh⟩ = .ok p := congrArg Prod.fst (hrun.trans hagain)
    have hafter : Call.after c ⟨s, refresh⟩ = s'' := congrArg Prod.snd (hrun.trans hagain)
    refine ⟨⟨⟨s, refresh⟩, List.mem_cons_self, p, ⟨hresult, hp⟩, hresult, ?_⟩,
      .inr ⟨⟨s, refresh⟩, List.mem_cons_self, p, k, ⟨hresult, hp⟩, hs, hk, ?_⟩⟩
    · rw [hafter, htree]
      exact haside.contents _ _ _
    · rw [hafter, htree]
      exact (hM.writable hs).saved (Project.detected_storable hp) (digest_of_checksum hk) _

variable (hM : c.Moments M) (haside : ∀ t, M t → c.Aside t)

include hM haside

theorem Uses.faithful (hstart : c.isPresent s.tree = .ok false) (huses : Uses c M s calls s') :
    Faithful c M calls s' := by
  induction huses with
  | start => exact .inl hstart
  | call refresh huses _ ih =>
    exact (ih.call hM huses.moment (haside _ huses.moment) refresh).2
  | edit t _ hcache _ ih =>
    -- An edit leaves the cache alone, so what it holds is still that of the same call.
    rcases ih with habsent | ⟨a, ha, p, k, hdetects, hmoment, hk, hsaved⟩
    · refine .inl ?_
      rw [isPresent, hcache.present]
      exact habsent
    · exact .inr ⟨a, ha, p, k, hdetects, hmoment, hk, hcache.saved hsaved⟩
  | clock x _ ih => exact ih

omit hM haside [LawfulTree τ] [OverwritingTree τ] in
theorem Uses.split {later earlier : List (Call τ)} {b : Call τ} (huses : Uses c M s calls s')
    (hcalls : calls = later ++ b :: earlier) :
    Uses c M s earlier b.before ∧ M (b.after c).tree := by
  induction huses generalizing later with
  | start => exact absurd hcalls (by simp)
  | call refresh huses hmoment ih =>
    cases later with
    | nil =>
      cases hcalls
      exact ⟨huses, hmoment⟩
    | cons a later => exact ih (List.cons.inj hcalls).2
  | edit _ _ _ _ ih => exact ih hcalls
  | clock _ _ ih => exact ih hcalls

/-- Every call of a run that starts without a cache is current. -/
theorem Uses.current {later earlier : List (Call τ)} {b : Call τ}
    (hstart : c.isPresent s.tree = .ok false) (huses : Uses c M s calls s')
    (hcalls : calls = later ++ b :: earlier) : Call.Current c earlier b := by
  obtain ⟨hbefore, -⟩ := huses.split hcalls
  exact ((hbefore.faithful hM haside hstart).call hM hbefore.moment (haside _ hbefore.moment)
    b.refresh).1

end JavaProfile.Cache
