import JavaProfile.Proofs.Run.Relock

/-!
How old a cached profile can be. Each save begins its lifetime anew, so what was detected once is
used for a lifetime, and for another one with each command on its locks.
-/

namespace JavaProfile.Cache

open Visit Work

variable {τ : Type} [FileTree τ] {c user : Cache} {M : τ → Prop}
  {T : Timestamp → Timestamp → Prop} {s s' : Session τ} {visits : List (Visit τ)} {t : τ}
  {now : Timestamp} {lifetime : Nat} {p q : Profile}

/-- Some visit has detected the values of a profile, and each command after it may have taken the
time of the profile further by a lifetime. -/
def Since (c : Cache) (lifetime : Nat) (visits : List (Visit τ)) (q : Profile) : Prop :=
  ∃ later a earlier, visits = later ++ a :: earlier ∧ a.Detects c q ∧
    q.detectedAt.instant - a.before.now.instant ≤ (later.countP Visit.isCommand * lifetime : Nat)

theorem Since.visit (h : Since c lifetime visits q) (v : Visit τ) :
    Since c lifetime (v :: visits) q := by
  obtain ⟨later, a, earlier, rfl, hdetects, hage⟩ := h
  refine ⟨v :: later, a, earlier, rfl, hdetects, hage.trans ?_⟩
  have hcount : later.countP Visit.isCommand ≤ (v :: later).countP Visit.isCommand := by
    rw [List.countP_cons]
    omega
  exact Int.ofNat_le.mpr (Nat.mul_le_mul_right lifetime hcount)

variable [LawfulTree τ] [OverwritingTree τ]

open MemoryTree

end JavaProfile.Cache
