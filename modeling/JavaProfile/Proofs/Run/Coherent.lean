import JavaProfile.Proofs.Profile.Bond
import JavaProfile.Proofs.Run.Relock

/-!
Fields that belong together agree in every profile of a run, as long as no cached profile protects
some of them and not the others.
-/

namespace JavaProfile.Cache

open Work

variable {τ : Type} [FileTree τ] {c user : Cache} {b : Bond} {M : τ → Prop}
  {T : Timestamp → Timestamp → Prop} {s s' : Session τ} {visits : List (Visit τ)} {v : Visit τ}
  {p q x : Profile}

theorem Renews.agrees (hdirectory : user.project.directory = c.project.directory)
    (hwhole : ∀ now q, (c.load s.tree now).result = .ok (some q) → b.Whole q)
    (hagrees : ∀ now q, (c.load s.tree now).result = .ok (some q) → b.Agrees q)
    (h : user.Renews s x) : b.Agrees x := by
  obtain ⟨previous, fresh, hprevious, hfresh, rfl⟩ := h
  have hdetected : b.Agrees fresh := by
    obtain ⟨manifests, mainContents, testContents, -, -, rfl⟩ := Project.detected_ok hfresh
    exact b.agrees_detected _ _ _
  cases previous with
  | none => exact hdetected
  | some q =>
    have hload := load_of_previous hprevious
    rw [load_congr hdirectory] at hload
    exact Bond.agrees_carry hdetected (hagrees _ _ hload) (hwhole _ _ hload)

theorem agrees_of_sameValues (h : p.SameValues q) (hp : b.Agrees p) : b.Agrees q :=
  (Bond.agrees_congr fun f hf => h f (Bond.lockable hf)).mpr hp

variable [LawfulTree τ] [OverwritingTree τ]

theorem visit_agrees (hon : v.On c) (hinert : c.Inert v.before.tree)
    (hhalf : ∀ user : Cache, user.project.directory = c.project.directory →
      c.Inert (runs (user.loadOrDetect false) v.before).2.tree)
    (hwhole : ∀ now q, (c.load v.before.tree now).result = .ok (some q) → b.Whole q)
    (hagrees : ∀ now q, (c.load v.before.tree now).result = .ok (some q) → b.Agrees q) :
    (∀ now q, (c.load v.after.tree now).result = .ok (some q) → b.Agrees q) ∧
      ∀ p, v.Returns p → b.Agrees p := by
  constructor
  · intro now q hq
    rcases visit_loads hon hinert hhalf hq with hbefore |
      ⟨-, ⟨user, refresh, x, hopens, -, hx, hvalues⟩ | ⟨-, user, p, -, -, hload, hvalues⟩⟩
    · exact hagrees now q hbefore
    · exact agrees_of_sameValues hvalues (hx.agrees (hopens.directory hon) hwhole hagrees)
    · exact agrees_of_sameValues hvalues (hagrees _ p hload)
  · rintro p ⟨user, refresh, hdeed, hp⟩
    have hdirectory : user.project.directory = c.project.directory := by
      rw [Visit.On, hdeed] at hon
      exact hon
    rcases loadOrDetect_returns hp with ⟨-, -, hload⟩ | ⟨-, x, hx, hpx⟩
    · rw [load_congr hdirectory] at hload
      exact hagrees _ p hload
    · have hagree := hx.agrees hdirectory hwhole hagrees
      rcases hpx with rfl | rfl
      · exact hagree
      · exact agrees_of_sameValues (.stamped x _) hagree

/-- Over a run from no cache, fields that belong together agree in every profile that is returned
and in every profile that is cached, if all cached profiles protect either all of them or none. -/
theorem visits_agree (hinert : ∀ t, M t → c.Inert t)
    (hwhole : ∀ t, M t → ∀ now q, (c.load t now).result = .ok (some q) → b.Whole q)
    (hstart : c.isPresent s.tree = .ok false) (hvisits : Visits c M T s visits s') :
    (∀ now q, (c.load s'.tree now).result = .ok (some q) → b.Agrees q) ∧
      ∀ v ∈ visits, ∀ p, v.Returns p → b.Agrees p := by
  induction hvisits with
  | start =>
    refine ⟨fun now q hq => ?_, fun v hv => by cases hv⟩
    rw [load_of_absent hstart] at hq
    cases hq
  | @visit visits s' deed hvisits hon hhalf hmoment ih =>
    obtain ⟨hcached, hreturned⟩ := ih
    have hbefore := hvisits.moment
    obtain ⟨hafter, hlast⟩ := visit_agrees (v := ⟨s', deed⟩) hon (hinert _ hbefore)
      (fun user hdirectory => hinert _ (hhalf user hdirectory)) (hwhole _ hbefore) hcached
    refine ⟨hafter, fun v hv => ?_⟩
    rcases List.mem_cons.mp hv with rfl | hv
    · exact hlast
    · exact hreturned v hv
  | edit t hvisits hprofile hmoment ih =>
    exact ⟨fun now q hq => ih.1 now q (load_of_reads hprofile hq), ih.2⟩
  | clock x hvisits hclock ih => exact ih

/-! ### A run with locks -/

open MemoryTree

def swaggerSource : StoredFile :=
  ⟨"package a;\nimport io.swagger.v3.oas.annotations.Operation;\nclass A \x7b\x7d", .double 0.0⟩

theorem hashed_swagger : ∃ k, plainChecksum swaggerSource = .ok k := by
  have hok : (plainChecksum swaggerSource).isOk = true := by decide +kernel
  cases hk : plainChecksum swaggerSource with
  | ok k => exact ⟨k, rfl⟩
  | error e =>
    rw [hk] at hok
    cases hok

/-- The project is detected, something in its profile is locked, and it is detected again when its
source file has changed. -/
theorem visits_swagger {names : List String} {targets : List LockTarget}
    (hread : Command.read ("lock" :: "/" :: names) = .ok (.run ⟨.lock, [], "/" :: names⟩))
    (hnames : names ≠ []) (htargets : Command.lockTargets names = .ok targets)
    {P : Profile → Prop} (hfresh : ∀ p : Profile, p.Unlocked → P p)
    (hsame : ∀ p q : Profile, p.SameLocks q → P p → P q) (hlocked : P (plainLocked targets 0.0)) :
    ∃ visits s' v r,
      Visits atRoot (fun t => ∀ now q, (atRoot.load t now).result = .ok (some q) → P q)
        (fun _ _ => True) plainSession visits s' ∧
      v ∈ visits ∧ v.Returns r ∧
      r = ((plainDetected swaggerSource).carryLockedFrom (plainLocked targets 0.0)).stamped
        plainSession.now := by
  obtain ⟨k', hk'⟩ := hashed_swagger
  have hstorable := storable_plainLocked targets 0.0
  have hstale : atRoot.isStale (plainDetected plainSource) plainSession.now = false :=
    isStale_at (by decide) (detectedAt_plainDetected plainSource)
  obtain ⟨k, s₁, s₂, -, hvisits, hclock, -, -, hmoment, htree⟩ := visits_locked (T := fun _ _ => True)
    hread hnames htargets trivial hstale hfresh hsame hlocked
  have hcached {checksum : StoredFile} {time : Number} : ∀ now q, (atRoot.load (cached swaggerSource
      plainTest ⟨(plainLocked targets 0.0).document, time⟩ checksum) now).result = .ok (some q) →
      P q := by
    intro now q hq
    rw [load_cached hstorable] at hq
    cases hq
    exact hlocked
  have hedited := hvisits.edit (cached swaggerSource plainTest
    ⟨(plainLocked targets 0.0).document, .double 0.0⟩ ⟨k, .double 0.0⟩)
    (by
      rw [htree, atRoot_profilePath]
      exact (read_cached _ _ _ _).1.trans (read_cached _ _ _ _).1.symm)
    hcached
  set s₃ : Session MemoryTree := { s₂ with tree := _ }
  have hnow : s₃.now = plainSession.now := by
    rw [Session.now, show s₃.clock = s₁.clock from hmoment.clock, hclock]
    rfl
  obtain ⟨r, s₄, hrun₄, -, hr, -⟩ := detectAgain_cached hk' hstorable (s := s₃) rfl
  rw [hnow] at hr
  have hbefore := hedited.moment
  have hcalls (user : Cache) (hdirectory : user.project.directory = atRoot.project.directory)
      (refresh : Bool) :=
    call_locks hfresh hsame (inert_memory atRoot s₃.tree) hbefore hdirectory refresh
  have hthird := hedited.visit (.call atRoot true) rfl
    (fun user hdirectory => hcalls user hdirectory false)
    (by
      rw [Visit.after_call]
      exact hcalls atRoot rfl true)
  exact ⟨_, _, _, r, hthird, List.mem_cons_self, ⟨atRoot, true, rfl, congrArg Prod.fst hrun₄⟩, hr⟩

theorem swagger_plainDetected :
    (plainDetected plainSource).hasSwagger = false ∧
      (plainDetected plainSource).swaggerStyle = .absent ∧
      (plainDetected swaggerSource).swaggerStyle = .openapi3 := by
  have hplain : (plainScan plainSource plainTest).swaggerStyle = .absent := by decide +kernel
  have hswagger : (plainScan swaggerSource plainTest).swaggerStyle = .openapi3 := by decide +kernel
  simp only [plainDetected, Scan.profile]
  rw [hplain, hswagger]
  exact ⟨rfl, rfl, rfl⟩

theorem agrees_swagger :
    ∃ visits s' v r,
      Visits atRoot (fun t => ∀ now q, (atRoot.load t now).result = .ok (some q) →
        Bond.swagger.Whole q) (fun _ _ => True) plainSession visits s' ∧
      v ∈ visits ∧ v.Returns r ∧ Bond.swagger.Agrees r := by
  have hread : Command.read ["lock", "/", "has_swagger", "swagger_style"] =
      .ok (.run ⟨.lock, [], ["/", "has_swagger", "swagger_style"]⟩) := by
    decide +kernel
  have htargets : Command.lockTargets ["has_swagger", "swagger_style"] =
      .ok [.field .hasSwagger, .field .swaggerStyle] := by
    decide +kernel
  have hlocked : Bond.swagger.Whole
      (plainLocked [.field .hasSwagger, .field .swaggerStyle] 0.0) := by
    left
    intro f hf
    right
    have hnames : ∀ f ∈ Bond.swagger.fields, f.name ∈ ["has_swagger", "swagger_style"] := by decide
    exact hnames f hf
  obtain ⟨visits, s', v, r, hvisits, hv, hr, -⟩ := visits_swagger hread
    (List.cons_ne_nil _ _) htargets (fun _ hp => Bond.swagger.whole_of_unlocked hp)
    (fun _ _ h hp => Bond.whole_sameLocks h hp) hlocked
  obtain ⟨-, hagrees⟩ := visits_agree (fun t _ => inert_memory atRoot t) (fun t ht => ht)
    absent_plain hvisits
  exact ⟨visits, s', v, r, hvisits, hv, hr, hagrees v hv r hr⟩

/-- With one of two fields locked the other follows the sources alone. -/
theorem disagrees_swagger :
    ∃ visits s' v r, atRoot.isPresent plainSession.tree = .ok false ∧
      Visits atRoot atRoot.Inert (fun _ _ => True) plainSession visits s' ∧
      v ∈ visits ∧ v.Returns r ∧ ¬ Bond.swagger.Agrees r := by
  have hread : Command.read ["lock", "/", "has_swagger"] =
      .ok (.run ⟨.lock, [], ["/", "has_swagger"]⟩) := by
    decide +kernel
  have htargets : Command.lockTargets ["has_swagger"] = .ok [.field .hasSwagger] := by
    decide +kernel
  obtain ⟨hpresent₀, -, hstyle⟩ := swagger_plainDetected
  obtain ⟨visits, s', v, r, hvisits, hv, hr, rfl⟩ := visits_swagger (P := fun _ => True) hread
    (List.cons_ne_nil _ _) htargets (fun _ _ => trivial) (fun _ _ _ _ => trivial) trivial
  refine ⟨visits, s', v, _, absent_plain, hvisits.mono fun t _ => inert_memory atRoot t, hv, hr, ?_⟩
  intro hagrees
  set q := plainLocked [.field .hasSwagger] 0.0
  have hpresent : ((plainDetected swaggerSource).carryLockedFrom q).hasSwagger =
      if q.keeps .hasSwagger then q.hasSwagger else (plainDetected swaggerSource).hasSwagger :=
    Profile.get_carry (plainDetected swaggerSource) q .hasSwagger
  have hother : ((plainDetected swaggerSource).carryLockedFrom q).swaggerStyle =
      if q.keeps .swaggerStyle then q.swaggerStyle
      else (plainDetected swaggerSource).swaggerStyle :=
    Profile.get_carry (plainDetected swaggerSource) q .swaggerStyle
  have hkept : q.keeps .hasSwagger = true := by decide +kernel
  have hfree : q.keeps .swaggerStyle = false := by decide +kernel
  rw [if_pos hkept] at hpresent
  rw [hfree, if_neg Bool.false_ne_true, hstyle] at hother
  have hstyled : ((plainDetected swaggerSource).carryLockedFrom q).swaggerStyle ≠ .absent := by
    rw [hother]
    decide
  have htrue : ((plainDetected swaggerSource).carryLockedFrom q).hasSwagger = true :=
    hagrees.mpr hstyled
  rw [hpresent] at htrue
  exact Bool.false_ne_true (hpresent₀.symm.trans htrue)

end JavaProfile.Cache
