import JavaProfile.Proofs.Profile.Field
import JavaProfile.Profile.Lock

/-!
Locks. A profile that protects a field hands the value and the protection on to every profile that
carries what is locked in it, and only unlocking ends this.
-/

namespace JavaProfile

/-! ### Protection -/

namespace Field

/-- Fields that locks are for: not the time of detection and not the locks themselves. -/
structure Lockable (f : Field) : Prop where
  ne_detectedAt : f ≠ .detectedAt
  ne_lockedFields : f ≠ .lockedFields
  ne_flag : ∀ g : LockGroup, f ≠ g.flag

end Field

/-- Whether a target is the field itself or a group with it. -/
def LockTarget.Names (f : Field) : LockTarget → Prop
  | .group g => f ∈ g.fields
  | .field f' => f' = f

namespace Profile

/-- The flag of a group with the field is set, or the field is locked by name. -/
def Protects (p : Profile) (f : Field) : Prop :=
  (∃ g : LockGroup, g.isLocked p = true ∧ f ∈ g.fields) ∨ f.name ∈ p.lockedFields

/-- A field is protected and has a value. -/
structure Holds (f : Field) (v : f.member.Value) (p : Profile) : Prop where
  value : f.member.get p = v
  protects : p.Protects f

variable {f : Field} {v : f.member.Value} {p q previous : Profile}

theorem get_carry (p previous : Profile) (f : Field) :
    f.member.get (p.carryLockedFrom previous) =
      if previous.keeps f then f.member.get previous else f.member.get p := by
  rw [carryLockedFrom, Field.get_copies]
  simp only [List.mem_filter, Field.mem_order, true_and]

theorem lockedFields_carry (p previous : Profile) :
    (p.carryLockedFrom previous).lockedFields = previous.lockedFields := by
  have hkeeps : previous.keeps .lockedFields = true := rfl
  have hget := get_carry p previous .lockedFields
  rw [if_pos hkeeps] at hget
  exact hget

theorem keeps_of_group {g : LockGroup} (hlocked : g.isLocked p = true)
    (hf : f = g.flag ∨ f ∈ g.fields) : p.keeps f = true := by
  have hall : g ∈ (Labelled.all : List LockGroup) := by cases g <;> decide
  have hgroup : p.groupProtects f = true := by
    rw [groupProtects, List.any_eq_true]
    refine ⟨g, hall, ?_⟩
    rcases hf with rfl | hf
    · simp [hlocked]
    · simp [hlocked, hf]
  rw [keeps, hgroup, Bool.or_true]

theorem keeps_of_protects (h : p.Protects f) : p.keeps f = true := by
  rcases h with ⟨g, hlocked, hf⟩ | hname
  · exact keeps_of_group hlocked (.inr hf)
  · rw [keeps, isFieldLocked, List.contains_iff_mem.mpr hname, Bool.or_true, Bool.true_or]

theorem isLocked_carry {g : LockGroup} (h : g.isLocked previous = true) (p : Profile) :
    g.isLocked (p.carryLockedFrom previous) = true := by
  have hget := get_carry p previous g.flag
  rw [if_pos (keeps_of_group h (.inl rfl))] at hget
  cases g <;> exact hget.trans h

theorem isLocked_carry_eq (hp : ∀ g : LockGroup, g.isLocked p = false) (previous : Profile)
    (g : LockGroup) : g.isLocked (p.carryLockedFrom previous) = g.isLocked previous := by
  cases hlocked : g.isLocked previous with
  | true => exact isLocked_carry hlocked p
  | false =>
    have hget := get_carry p previous g.flag
    have hfalse := hp g
    split at hget
    · cases g <;> exact hget.trans hlocked
    · cases g <;> exact hget.trans hfalse

theorem Protects.carry (h : previous.Protects f) (p : Profile) :
    (p.carryLockedFrom previous).Protects f := by
  rcases h with ⟨g, hlocked, hf⟩ | hname
  · exact .inl ⟨g, isLocked_carry hlocked p, hf⟩
  · right
    rw [lockedFields_carry]
    exact hname

theorem Holds.carry (h : previous.Holds f v) (p : Profile) :
    (p.carryLockedFrom previous).Holds f v where
  value := by rw [get_carry, if_pos (keeps_of_protects h.protects), h.value]
  protects := h.protects.carry p

theorem Holds.stamped (h : p.Holds f v) (hf : f ≠ .detectedAt) (t : Timestamp) :
    (p.stamped t).Holds f v where
  value := by rw [get_stamped hf, h.value]
  protects := by
    rcases h.protects with ⟨g, hlocked, hmem⟩ | hname
    · refine .inl ⟨g, ?_, hmem⟩
      rw [← hlocked]
      cases g <;> rfl
    · exact .inr hname

theorem Holds.of_stamped (h : p.Holds f v) (hf : f ≠ .detectedAt)
    (hsame : ∀ t, q.stamped t = p.stamped t) : q.Holds f v := by
  have hstamped := h.stamped hf q.detectedAt
  rw [← hsame] at hstamped
  exact hstamped

theorem Storable.carry (hp : p.Storable) (hprevious : previous.Storable) :
    (p.carryLockedFrom previous).Storable := by
  have hversion : (p.carryLockedFrom previous).schemaVersion =
      if previous.keeps .schemaVersion then previous.schemaVersion else p.schemaVersion :=
    get_carry p previous .schemaVersion
  have hconfidence : (p.carryLockedFrom previous).confidence =
      if previous.keeps .confidence then previous.confidence else p.confidence :=
    get_carry p previous .confidence
  constructor
  · rw [hversion, hp.version, hprevious.version, ite_self]
  · rw [hconfidence]
    split
    · exact hprevious.confidence_low
    · exact hp.confidence_low
  · rw [hconfidence]
    split
    · exact hprevious.confidence_high
    · exact hp.confidence_high

end Profile

/-! ### Changing locks -/

namespace LockGroup

theorem setLocked_eq (locked : Bool) (p : Profile) (g : LockGroup) :
    ∃ x, g.setLocked locked p = g.flag.member.set x p := by
  cases g <;> exact ⟨locked, rfl⟩

theorem isLocked_setLocked_self (locked : Bool) (p : Profile) (g : LockGroup) :
    g.isLocked (g.setLocked locked p) = locked := by
  cases g <;> rfl

theorem isLocked_setLocked_other {g g' : LockGroup} (hne : g' ≠ g) (locked : Bool) (p : Profile) :
    g'.isLocked (g.setLocked locked p) = g'.isLocked p := by
  cases g <;> cases g' <;> first | rfl | exact absurd rfl hne

end LockGroup

namespace LockTarget

variable {f : Field} {v : f.member.Value} {p : Profile}

theorem get_setLocked (hf : f.Lockable) (locked : Bool) (p : Profile) (target : LockTarget) :
    f.member.get (target.setLocked locked p) = f.member.get p := by
  cases target with
  | group g =>
    obtain ⟨x, hx⟩ := g.setLocked_eq locked p
    rw [setLocked, hx]
    exact Field.get_set_other (hf.ne_flag g) x p
  | field f' =>
    have hlist (names : List String) :
        f.member.get { p with lockedFields := names } = f.member.get p :=
      Field.get_set_other (g := .lockedFields) hf.ne_lockedFields names p
    cases locked with
    | false => exact hlist _
    | true =>
      change f.member.get (p.lockField f'.name) = _
      rw [Profile.lockField]
      split
      · rfl
      · exact hlist _

theorem protects_setLocked {locked : Bool} {target : LockTarget}
    (hkept : locked = true ∨ ¬ target.Names f) (h : p.Protects f) :
    (target.setLocked locked p).Protects f := by
  cases target with
  | group g =>
    rcases h with ⟨g', hlocked, hmem⟩ | hname
    · refine .inl ⟨g', ?_, hmem⟩
      change g'.isLocked (g.setLocked locked p) = true
      by_cases heq : g' = g
      · -- The field is one of the group, so the group is locked here and not unlocked.
        subst heq
        rw [LockGroup.isLocked_setLocked_self]
        exact hkept.resolve_right fun hnot => hnot hmem
      · rw [LockGroup.isLocked_setLocked_other heq, hlocked]
    · right
      cases g <;> exact hname
  | field f' =>
    have hflags (names : List String) (g : LockGroup) :
        g.isLocked { p with lockedFields := names } = g.isLocked p := by
      cases g <;> rfl
    cases locked with
    | false =>
      have hne : f' ≠ f := hkept.resolve_left (by decide)
      change ({ p with lockedFields := p.lockedFields.erase f'.name } : Profile).Protects f
      rcases h with ⟨g, hlocked, hmem⟩ | hname
      · exact .inl ⟨g, (hflags _ g).trans hlocked, hmem⟩
      · have hnames : f.name ≠ f'.name := fun heq => hne (Field.name_injective heq).symm
        exact .inr ((List.mem_erase_of_ne hnames).mpr hname)
    | true =>
      change (p.lockField f'.name).Protects f
      rw [Profile.lockField]
      split
      · exact h
      · rcases h with ⟨g, hlocked, hmem⟩ | hname
        · exact .inl ⟨g, (hflags _ g).trans hlocked, hmem⟩
        · exact .inr (List.mem_append_left _ hname)

theorem holds_setLocked (hf : f.Lockable) {locked : Bool} {target : LockTarget}
    (hkept : locked = true ∨ ¬ target.Names f) (h : p.Holds f v) :
    (target.setLocked locked p).Holds f v where
  value := (get_setLocked hf locked p target).trans h.value
  protects := protects_setLocked hkept h.protects

theorem storable_foldl (locked : Bool) (targets : List LockTarget) (h : p.Storable) :
    (targets.foldl (fun p t => t.setLocked locked p) p).Storable := by
  induction targets generalizing p with
  | nil => exact h
  | cons target targets ih =>
    apply ih
    cases target with
    | group g => cases g <;> exact ⟨h.version, h.confidence_low, h.confidence_high⟩
    | field f =>
      cases locked with
      | false => exact ⟨h.version, h.confidence_low, h.confidence_high⟩
      | true =>
        change (p.lockField f.name).Storable
        rw [Profile.lockField]
        split
        · exact h
        · exact ⟨h.version, h.confidence_low, h.confidence_high⟩

theorem holds_foldl (hf : f.Lockable) {locked : Bool} {targets : List LockTarget}
    (hkept : locked = true ∨ ∀ target ∈ targets, ¬ target.Names f) (h : p.Holds f v) :
    (targets.foldl (fun p t => t.setLocked locked p) p).Holds f v := by
  induction targets generalizing p with
  | nil => exact h
  | cons target targets ih =>
    apply ih
    · exact hkept.imp_right fun hnot t ht => hnot t (List.mem_cons_of_mem target ht)
    · exact holds_setLocked hf (hkept.imp_right fun hnot => hnot target List.mem_cons_self) h

end LockTarget

end JavaProfile
