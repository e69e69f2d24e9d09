import JavaProfile.Proofs.Profile.Lock
import JavaProfile.Proofs.Store.Whole

/-!
What unlocking leaves locked.
-/

namespace JavaProfile

namespace Profile

variable {p q : Profile} {f : Field}

theorem keeps_iff_protects (hf : f.Lockable) : p.keeps f = true ↔ p.Protects f := by
  refine ⟨fun h => ?_, keeps_of_protects⟩
  rw [keeps, Bool.or_eq_true, Bool.or_eq_true, beq_iff_eq, isFieldLocked, List.contains_iff_mem] at h
  rcases h with (rfl | hname) | hgroup
  · exact absurd rfl hf.ne_lockedFields
  · exact .inr hname
  · rw [groupProtects, List.any_eq_true] at hgroup
    obtain ⟨g, -, hg⟩ := hgroup
    rw [Bool.and_eq_true, Bool.or_eq_true, beq_iff_eq, List.contains_iff_mem] at hg
    exact .inl ⟨g, hg.1, hg.2.resolve_left (hf.ne_flag g)⟩

/-- The same is locked, in the same way. -/
structure SameLocks (p q : Profile) : Prop where
  groups (g : LockGroup) : g.isLocked q = g.isLocked p
  fields : q.lockedFields = p.lockedFields

theorem SameLocks.trans {r : Profile} (h : p.SameLocks q) (h' : q.SameLocks r) : p.SameLocks r :=
  ⟨fun g => (h'.groups g).trans (h.groups g), h'.fields.trans h.fields⟩

theorem SameLocks.stamped (p : Profile) (t : Timestamp) : p.SameLocks (p.stamped t) :=
  ⟨fun g => by cases g <;> rfl, rfl⟩

theorem SameLocks.of_stamped (h : ∀ t, q.stamped t = p.stamped t) : p.SameLocks q := by
  have hq := SameLocks.stamped q q.detectedAt
  have hp := SameLocks.stamped p q.detectedAt
  rw [h] at hq
  exact ⟨fun g => (hq.groups g).symm.trans (hp.groups g), hq.fields.symm.trans hp.fields⟩

theorem SameLocks.carry (hq : q.Unlocked) (p : Profile) : p.SameLocks (q.carryLockedFrom p) where
  groups := isLocked_carry_eq hq.groups p
  fields := lockedFields_carry q p

theorem SameLocks.protects (h : p.SameLocks q) : q.Protects f ↔ p.Protects f := by
  simp only [Protects, h.groups, h.fields]

/-- What protects a field still when some targets were unlocked: a group that is none of them, or
its name, when that is locked more often than it was unlocked. -/
def Remains (p : Profile) (targets : List LockTarget) (f : Field) : Prop :=
  (∃ g : LockGroup, g.isLocked p = true ∧ f ∈ g.fields ∧ .group g ∉ targets) ∨
    targets.count (.field f) < p.lockedFields.count f.name

theorem SameLocks.remains (h : p.SameLocks q) {targets : List LockTarget} :
    q.Remains targets f ↔ p.Remains targets f := by
  simp only [Remains, h.groups, h.fields]

end Profile

namespace LockTarget

variable {p : Profile} {f : Field}

theorem isLocked_unlock (target : LockTarget) (g : LockGroup) :
    g.isLocked (target.setLocked false p) = true ↔ g.isLocked p = true ∧ target ≠ .group g := by
  cases target with
  | group g' =>
    by_cases heq : g = g'
    · subst heq
      simp [setLocked, LockGroup.isLocked_setLocked_self]
    · simp [setLocked, LockGroup.isLocked_setLocked_other heq, Ne.symm heq]
  | field f' => cases g <;> simp [setLocked, Profile.unlockField, LockGroup.isLocked]

theorem count_unlock (target : LockTarget) :
    (target.setLocked false p).lockedFields.count f.name =
      p.lockedFields.count f.name - [target].count (.field f) := by
  cases target with
  | group g => cases g <;> simp [setLocked, LockGroup.setLocked]
  | field f' =>
    by_cases heq : f' = f
    · subst heq
      simp [setLocked, Profile.unlockField]
    · have hname : f'.name ≠ f.name := fun hname => heq (Field.name_injective hname)
      simp [setLocked, Profile.unlockField, List.count_erase_of_ne hname.symm, heq]

theorem isLocked_unlockAll (targets : List LockTarget) (g : LockGroup) :
    g.isLocked (targets.foldl (fun p t => t.setLocked false p) p) = true ↔
      g.isLocked p = true ∧ .group g ∉ targets := by
  induction targets generalizing p with
  | nil => simp
  | cons target targets ih =>
    rw [List.foldl_cons, ih, isLocked_unlock, List.mem_cons]
    tauto

theorem count_unlockAll (targets : List LockTarget) :
    (targets.foldl (fun p t => t.setLocked false p) p).lockedFields.count f.name =
      p.lockedFields.count f.name - targets.count (.field f) := by
  induction targets generalizing p with
  | nil => simp
  | cons target targets ih =>
    have hcons : (target :: targets).count (field f) =
        [target].count (field f) + targets.count (field f) :=
      @List.count_append _ _ _ [target] targets
    rw [List.foldl_cons, ih, count_unlock, hcons, Nat.sub_sub]

/-- Unlocking takes back each lock once, and nothing but the locks it is told. -/
theorem protects_unlockAll (targets : List LockTarget) :
    (targets.foldl (fun p t => t.setLocked false p) p).Protects f ↔ p.Remains targets f := by
  have hname : f.name ∈ (targets.foldl (fun p t => t.setLocked false p) p).lockedFields ↔
      targets.count (.field f) < p.lockedFields.count f.name := by
    rw [← List.count_pos_iff, count_unlockAll]
    omega
  simp only [Profile.Protects, Profile.Remains, isLocked_unlockAll, hname]
  refine or_congr_left (exists_congr fun g => ?_)
  tauto

end LockTarget

end JavaProfile
