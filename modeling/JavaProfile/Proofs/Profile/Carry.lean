import JavaProfile.Proofs.Profile.Lock

/-!
Profiles with locked fields of earlier ones. Each field is either the new one or the earlier one, so
a chain of profiles ends as if only the last one had been made.
-/

namespace JavaProfile

namespace Profile

variable {p q previous : Profile} {f : Field}

theorem ext_get (h : ∀ f : Field, f.member.get p = f.member.get q) : p = q := by
  have hcopy (start : Profile) (m : Schema.Member Profile) (hm : m ∈ members) :
      m.copy p start = m.copy q start := by
    obtain ⟨f, -, rfl⟩ := List.mem_map.mp hm
    rw [Schema.Member.copy, h, Schema.Member.copy]
  calc p = members.foldl (fun r m => m.copy p r) p := (copy_all p p).symm
    _ = members.foldl (fun r m => m.copy q r) p := List.foldl_ext _ _ _ hcopy
    _ = q := copy_all q p

/-- The field is one to be kept: the list of locks, a field in that list, or a flag that is set or a
field of its group. -/
def Retains (p : Profile) (f : Field) : Prop :=
  f = .lockedFields ∨ f.name ∈ p.lockedFields ∨
    ∃ g : LockGroup, g.isLocked p = true ∧ (f = g.flag ∨ f ∈ g.fields)

theorem keeps_iff : p.keeps f = true ↔ p.Retains f := by
  have hall (g : LockGroup) : g ∈ (Labelled.all : List LockGroup) := by cases g <;> decide
  simp [keeps, isFieldLocked, groupProtects, Retains, hall, or_assoc]

theorem retains_congr (hgroups : ∀ g : LockGroup, g.isLocked p = g.isLocked q)
    (hnames : ∀ f : Field, f.name ∈ p.lockedFields ↔ f.name ∈ q.lockedFields) :
    p.Retains f ↔ q.Retains f := by
  simp [Retains, hgroups, hnames]

theorem get_carry_of_retains (h : previous.Retains f) (p : Profile) :
    f.member.get (p.carryLockedFrom previous) = f.member.get previous := by
  rw [get_carry, if_pos (keeps_iff.mpr h)]

theorem get_carry_of_not_retains (h : ¬ previous.Retains f) (p : Profile) :
    f.member.get (p.carryLockedFrom previous) = f.member.get p := by
  rw [get_carry, if_neg (mt keeps_iff.mp h)]

/-- Names of no field and repeated names only stand in the list. -/
theorem carry_names (p previous : Profile) {names : List String}
    (hnames : ∀ f : Field, f.name ∈ names ↔ f.name ∈ previous.lockedFields) :
    p.carryLockedFrom { previous with lockedFields := names } =
      { p.carryLockedFrom previous with lockedFields := names } := by
  have hretains (f : Field) :
      Retains { previous with lockedFields := names } f ↔ previous.Retains f :=
    retains_congr (fun g => by cases g <;> rfl) hnames
  have hother {f : Field} (hf : f ≠ .lockedFields) (r : Profile) :
      f.member.get { r with lockedFields := names } = f.member.get r :=
    Field.get_set_other (g := .lockedFields) hf names r
  apply ext_get
  intro f
  by_cases hf : f = .lockedFields
  · subst hf
    exact lockedFields_carry _ _
  · rw [hother hf]
    by_cases h : previous.Retains f
    · rw [get_carry_of_retains ((hretains f).mpr h), get_carry_of_retains h, hother hf]
    · rw [get_carry_of_not_retains (mt (hretains f).mp h), get_carry_of_not_retains h]

theorem carry_carry_self (p previous : Profile) :
    (p.carryLockedFrom previous).carryLockedFrom previous = p.carryLockedFrom previous := by
  apply ext_get
  intro f
  by_cases h : previous.Retains f
  · rw [get_carry_of_retains h, get_carry_of_retains h]
  · rw [get_carry_of_not_retains h]

theorem carry_carry (hq : ∀ g : LockGroup, g.isLocked q = false) (p previous : Profile) :
    p.carryLockedFrom (q.carryLockedFrom previous) = p.carryLockedFrom previous := by
  have hretains (f : Field) : (q.carryLockedFrom previous).Retains f ↔ previous.Retains f := by
    apply retains_congr
    · exact isLocked_carry_eq hq previous
    · simp [lockedFields_carry]
  apply ext_get
  intro f
  by_cases h : previous.Retains f
  · rw [get_carry_of_retains ((hretains f).mpr h), get_carry_of_retains h, get_carry_of_retains h]
  · rw [get_carry_of_not_retains (mt (hretains f).mp h), get_carry_of_not_retains h]

theorem carry_foldl {between : List Profile}
    (hbetween : ∀ q ∈ between, ∀ g : LockGroup, g.isLocked q = false) (p previous : Profile) :
    p.carryLockedFrom (between.foldl (fun r q => q.carryLockedFrom r) previous) =
      p.carryLockedFrom previous := by
  induction between generalizing previous with
  | nil => rfl
  | cons q between ih =>
    rw [List.forall_mem_cons] at hbetween
    rw [List.foldl_cons, ih hbetween.2, carry_carry hbetween.1]

theorem carry_merges (p previous : Profile) :
    (p.carryLockedFrom previous).lockedFields = previous.lockedFields ∧
      (∀ f, (previous.Retains f →
            f.member.get (p.carryLockedFrom previous) = f.member.get previous) ∧
          (¬ previous.Retains f →
            f.member.get (p.carryLockedFrom previous) = f.member.get p)) ∧
      (∀ names, (∀ f : Field, f.name ∈ names ↔ f.name ∈ previous.lockedFields) →
        p.carryLockedFrom { previous with lockedFields := names } =
          { p.carryLockedFrom previous with lockedFields := names }) ∧
      (p.carryLockedFrom previous).carryLockedFrom previous = p.carryLockedFrom previous ∧
      ∀ between : List Profile, (∀ q ∈ between, ∀ g : LockGroup, g.isLocked q = false) →
        p.carryLockedFrom (between.foldl (fun r q => q.carryLockedFrom r) previous) =
          p.carryLockedFrom previous := by
  refine ⟨lockedFields_carry p previous, fun f => ⟨?_, ?_⟩, ?_, carry_carry_self p previous, ?_⟩
  · exact fun h => get_carry_of_retains h p
  · exact fun h => get_carry_of_not_retains h p
  · exact fun names => carry_names p previous
  · exact fun between h => carry_foldl h p previous

def manyLocks : Profile :=
  { Profile.standard .first with
    architecture := .clean
    architectureLocked := true
    mapper := .mapstruct
    database := .mongo
    lockedFields := ["mapper", "colour", "mapper"] }

theorem carry_merges_many :
    let p := Profile.standard .last
    let r := p.carryLockedFrom manyLocks
    r.architecture = .clean ∧ r.architectureLocked = true ∧ r.mapper = .mapstruct ∧
      r.database = .jpa ∧ r.lockedFields = ["mapper", "colour", "mapper"] ∧
      p.carryLockedFrom { manyLocks with lockedFields := ["mapper"] } =
        { r with lockedFields := ["mapper"] } ∧
      r.carryLockedFrom manyLocks = r ∧
      p.carryLockedFrom ((Profile.standard .first).carryLockedFrom r) = r := by
  intro p r
  obtain ⟨hnames, hfields, hother, hself, hchain⟩ := carry_merges p manyLocks
  refine ⟨(hfields .architecture).1 ?_, (hfields .architectureLocked).1 ?_,
    (hfields .mapper).1 ?_, (hfields .database).2 ?_, hnames, hother _ ?_, hself,
    hchain [p, .standard .first] ?_⟩
  · exact .inr (.inr ⟨.architecture, rfl, .inr (by decide)⟩)
  · exact .inr (.inr ⟨.architecture, rfl, .inl rfl⟩)
  · exact .inr (.inl (by decide))
  · rw [← keeps_iff]
    decide
  · intro f
    cases f <;> decide
  · intro q hq g
    rcases List.mem_cons.mp hq with rfl | hq
    · cases g <;> rfl
    · rw [List.mem_singleton.mp hq]
      cases g <;> rfl

end Profile

end JavaProfile
