import JavaProfile.Proofs.Run.HalfSave
import JavaProfile.Proofs.Store.Keep
import JavaProfile.Proofs.Store.Moment

/-!
What can be loaded once a cache was used: what could be loaded before, or what was saved last. This
holds whether or not every write succeeds, and wherever the paths of the cache lead.
-/

namespace JavaProfile.Cache

open Work

section Loading

variable {τ : Type} [FileTree τ] {c user : Cache} {t t' : τ} {now : Timestamp} {p : Profile}

theorem load_congr (h : user.project.directory = c.project.directory) (t : τ) (now : Timestamp) :
    user.load t now = c.load t now := by
  have hparse (text : String) : user.parse now text = c.parse now text := by
    rw [parse, fieldsOf, profilePath_congr h, parse, fieldsOf]
  unfold load isPresent
  rw [profilePath_congr h]
  simp only [hparse]

/-- What can be loaded can be loaded at any time, and only the time of detection may differ. -/
theorem load_later [LawfulTree τ] (h : (c.load t now).result = .ok (some p)) (later : Timestamp) :
    ∃ q, (c.load t later).result = .ok (some q) ∧ ∀ u, q.stamped u = p.stamped u := by
  obtain ⟨text, hread, hparse⟩ := load_ok h
  obtain ⟨q, hq, hsame⟩ := parse_later hparse later
  exact ⟨q, by rw [load_of_read hread, hq]; rfl, hsame⟩

end Loading

variable {τ : Type} [FileTree τ] {c : Cache} {s : Session τ} {x p q : Profile}
  {later : Timestamp} {refresh : Bool}

/-! ### What a call returns -/

/-- What a new detection makes: a fresh profile with what the cached one keeps. -/
def Renews (c : Cache) (s : Session τ) (x : Profile) : Prop :=
  ∃ previous fresh, previousOf (c.load s.tree s.now).result = .ok previous ∧
    c.project.detected s.tree s.now = .ok fresh ∧ x = fresh.carryFrom? previous

/-- A call does not return what is cached. -/
def Misses (c : Cache) (refresh : Bool) (s : Session τ) : Prop :=
  refresh = true ∨ (c.isValid s.tree s.now).result = .ok false

theorem Renews.storable (h : c.Renews s x) : x.Storable := by
  obtain ⟨previous, fresh, hprevious, hfresh, rfl⟩ := h
  exact storable_carryFrom? (Project.detected_storable hfresh) hprevious

theorem Renews.of_quiet {s' : Session τ} (hquiet : s.Quiet s') (h : c.Renews s' x) :
    c.Renews s x := by
  obtain ⟨previous, fresh, hprevious, hfresh, rfl⟩ := h
  rw [hquiet.tree, hquiet.now] at hprevious hfresh
  exact ⟨previous, fresh, hprevious, hfresh, rfl⟩

theorem detectAgain_renews (c : Cache) (s : Session τ) :
    (∃ e s', s.Quiet s' ∧ runs c.detectAgain s = (.error e, s')) ∨
      ∃ x s', s.Quiet s' ∧ c.Renews s x ∧ runs c.detectAgain s = runs (c.saveIfPossible x) s' := by
  rcases c.detectAgain_cases s with ⟨e, s', hquiet, hrun, -⟩ |
    ⟨previous, scan, s', hquiet, hprevious, hscan, hrun⟩
  · exact .inl ⟨e, s', hquiet, hrun⟩
  · refine .inr ⟨_, s', hquiet, ⟨previous, _, hprevious, ?_, rfl⟩, hrun⟩
    rw [Project.scan_announces] at hscan
    rw [Project.detected, hscan]
    rfl

theorem saveIfPossible_returns (h : (runs (c.saveIfPossible x) s).1 = .ok p) :
    p = x ∨ p = x.stamped s.now := by
  obtain ⟨s', -, hruns⟩ := c.saveIfPossible_runs s x
  rw [hruns, (c.save_moment x s).now] at h
  dsimp only at h
  have hsaved : ∀ y, (runs (c.save x) s).1 = .ok y → y = x.stamped s.now := by
    intro y hy
    rcases c.save_cases x s with ⟨e, -, hsave⟩ | ⟨e, s₂, -, hsave⟩ | ⟨s₂, -, -, hsave⟩
    · rw [hsave] at hy
      cases hy
    · rw [hsave] at hy
      cases hy
    · rw [hsave] at hy
      dsimp only at hy
      cases hseal : (runs c.sealSources s₂).1 with
      | error e =>
        rw [hseal] at hy
        cases hy
      | ok u =>
        rw [hseal] at hy
        cases hy
        rfl
  cases hresult : (runs (c.save x) s).1 with
  | ok y =>
    rw [hresult] at h
    cases h
    exact .inr (hsaved p hresult)
  | error e =>
    rw [hresult] at h
    cases e
    -- Of the failures of a cache only a failed write keeps the time of the save.
    case cache fault =>
      cases h
      cases fault
      case write => exact .inr rfl
      all_goals exact .inl rfl
    all_goals cases h

theorem detectAgain_returns (h : (runs c.detectAgain s).1 = .ok p) :
    ∃ x, c.Renews s x ∧ (p = x ∨ p = x.stamped s.now) := by
  rcases c.detectAgain_renews s with ⟨e, s', -, hrun⟩ | ⟨x, s', hquiet, hx, hrun⟩
  · rw [hrun] at h
    cases h
  · rw [hrun] at h
    refine ⟨x, hx, ?_⟩
    rw [← hquiet.now]
    exact saveIfPossible_returns h

theorem Misses.of_cases (h : refresh = true ∨ (c.isValid s.tree s.now).result = .ok false ∨
    (c.load s.tree s.now).result = .ok none) : c.Misses refresh s := by
  rcases h with hrefresh | hinvalid | habsent
  · exact .inl hrefresh
  · exact .inr hinvalid
  · right
    rw [isValid_result, habsent]

theorem loadOrDetect_returns (h : (runs (c.loadOrDetect refresh) s).1 = .ok p) :
    (refresh = false ∧ (c.isValid s.tree s.now).result = .ok true ∧
      (c.load s.tree s.now).result = .ok (some p)) ∨
    c.Misses refresh s ∧ ∃ x, c.Renews s x ∧ (p = x ∨ p = x.stamped s.now) := by
  rcases c.loadOrDetect_cases s refresh with ⟨e, s', -, hrun, -⟩ |
    ⟨q, s', -, hrun, hrefresh, hvalid, hload⟩ | ⟨s', hquiet, hrun, hcases⟩
  · rw [hrun] at h
    cases h
  · rw [hrun] at h
    cases h
    exact .inl ⟨hrefresh, hvalid, hload⟩
  · rw [hrun] at h
    obtain ⟨x, hx, hp⟩ := detectAgain_returns h
    rw [hquiet.now] at hp
    exact .inr ⟨.of_cases hcases, x, hx.of_quiet hquiet, hp⟩

theorem loadOrDetect_storable (h : (runs (c.loadOrDetect refresh) s).1 = .ok q) : q.Storable := by
  rcases loadOrDetect_returns h with ⟨-, -, hcached⟩ | ⟨-, x, hx, rfl | rfl⟩
  · exact storable_of_load hcached
  · exact hx.storable
  · exact hx.storable.stamped _

/-! ### What a call leaves -/

variable [OverwritingTree τ]

namespace Save

variable {a : Save τ}

theorem load_stored (hp : a.profile.Storable) (hstores : a.stores c = true)
    (h : (c.load (a.after c).tree later).result = .ok (some q)) :
    q = a.profile.stamped a.before.now := by
  obtain ⟨text, hread, hparse⟩ := load_ok h
  have hstamped := hp.stamped a.before.now
  have hwritten (hread : FileTree.read (a.written c) c.profilePath.text = .ok text) :
      q = a.profile.stamped a.before.now := by
    obtain rfl : text = a.document := (read_written hstores hread).eq hstamped.notMem_document
    have hdocument : c.parse later a.document = .ok (some (a.profile.stamped a.before.now)) :=
      parse_document hstamped later
    rw [hdocument] at hparse
    cases hparse
    rfl
  cases hsealed : a.checksum? c with
  | none => exact hwritten (read_of_unsealed hstores hsealed hread)
  | some k =>
    obtain ⟨-, hchecksum, -, htree⟩ := after_of_sealed hsealed
    rw [htree] at hread
    rcases OverwritingTree.read_of_write hread with hbefore | hover
    · exact hwritten hbefore
    · obtain ⟨message, rfl⟩ := digest_of_checksum hchecksum
      obtain rfl := hover.eq (Sha256.notMem_digest message)
      obtain ⟨fault, hfault⟩ := c.parse_digest message later
      rw [hfault] at hparse
      cases hparse

theorem load_unstored [LawfulTree τ] (hinert : c.Inert a.before.tree) (hstores : a.stores c = false)
    (h : (c.load (a.after c).tree later).result = .ok (some q)) :
    (c.load a.before.tree later).result = .ok (some q) := by
  obtain ⟨text, hread, hparse⟩ := load_ok h
  rw [load_of_read ((covers_of_unstored hinert hstores).profile hread), hparse]

theorem load_after [LawfulTree τ] (hp : a.profile.Storable) (hinert : c.Inert a.before.tree)
    (h : (c.load (a.after c).tree later).result = .ok (some q)) :
    (c.load a.before.tree later).result = .ok (some q) ∨ q = a.profile.stamped a.before.now := by
  cases hstores : a.stores c with
  | true => exact .inr (load_stored hp hstores h)
  | false => exact .inl (load_unstored hinert hstores h)

end Save

variable [LawfulTree τ]

theorem saveIfPossible_loads (hx : x.Storable) (hinert : c.Inert s.tree)
    (h : (c.load (runs (c.saveIfPossible x) s).2.tree later).result = .ok (some q)) :
    (c.load s.tree later).result = .ok (some q) ∨ q = x.stamped s.now := by
  obtain ⟨s', hquiet, hruns⟩ := c.saveIfPossible_runs s x
  rw [hruns] at h
  dsimp only at h
  rw [hquiet.tree] at h
  exact Save.load_after (a := ⟨s, x⟩) hx hinert h

theorem detectAgain_loads (hinert : c.Inert s.tree)
    (h : (c.load (runs c.detectAgain s).2.tree later).result = .ok (some q)) :
    (c.load s.tree later).result = .ok (some q) ∨ ∃ x, c.Renews s x ∧ q = x.stamped s.now := by
  rcases c.detectAgain_renews s with ⟨e, s', hquiet, hrun⟩ | ⟨x, s', hquiet, hx, hrun⟩
  · rw [hrun] at h
    dsimp only at h
    rw [hquiet.tree] at h
    exact .inl h
  · rw [hrun] at h
    rw [← hquiet.tree] at hinert ⊢
    rw [← hquiet.now]
    exact (saveIfPossible_loads hx.storable hinert h).imp_right fun hq => ⟨x, hx, hq⟩

/-- What can be loaded after a call could be loaded before, or was detected by the call. -/
theorem loadOrDetect_loads (hinert : c.Inert s.tree)
    (h : (c.load (runs (c.loadOrDetect refresh) s).2.tree later).result = .ok (some q)) :
    (c.load s.tree later).result = .ok (some q) ∨
      c.Misses refresh s ∧ ∃ x, c.Renews s x ∧ q = x.stamped s.now := by
  rcases c.loadOrDetect_cases s refresh with ⟨e, s', hquiet, hrun, -⟩ |
    ⟨p, s', hquiet, hrun, -⟩ | ⟨s', hquiet, hrun, hcases⟩
  · rw [hrun] at h
    dsimp only at h
    rw [hquiet.tree] at h
    exact .inl h
  · rw [hrun] at h
    dsimp only at h
    rw [hquiet.tree] at h
    exact .inl h
  · rw [hrun] at h
    have hinert' := hinert
    rw [← hquiet.tree] at hinert'
    rcases detectAgain_loads hinert' h with hbefore | ⟨x, hx, hq⟩
    · rw [hquiet.tree] at hbefore
      exact .inl hbefore
    · rw [hquiet.now] at hq
      exact .inr ⟨.of_cases hcases, x, hx.of_quiet hquiet, hq⟩

end JavaProfile.Cache
