import JavaProfile.Proofs.Store.Failure
import JavaProfile.Proofs.Store.Plain

/-!
What makes a cache valid. A profile is stale once it is older than its lifetime, so it is still used
at the very microsecond at which it has reached it.
-/

namespace JavaProfile.Cache

variable {τ : Type} [FileTree τ] {c : Cache} {t : τ} {now : Timestamp}

/-- The profile can be loaded, it has not reached its lifetime, and its checksum is that of the
sources. -/
def UpToDate (c : Cache) (t : τ) (now : Timestamp) : Prop :=
  ∃ p stored current, (c.load t now).result = .ok (some p) ∧ p.age now < c.lifetime.micros ∧
    FileTree.read t c.checksumPath.text = .ok stored ∧ c.project.checksum t = .ok current ∧
    String.ofList (Text.trim stored.toList) = current

/-- The profile is as old as it may get. -/
def AtLimit (c : Cache) (t : τ) (now : Timestamp) : Prop :=
  ∃ p, (c.load t now).result = .ok (some p) ∧ p.age now = c.lifetime.micros

theorem isStale_false {p : Profile} : c.isStale p now = false ↔ p.age now ≤ c.lifetime.micros := by
  rw [isStale, decide_eq_false_iff_not, Int.not_lt]

theorem isValid_of_matches {p : Profile} {stored current : String}
    (hload : (c.load t now).result = .ok (some p)) (hfresh : c.isStale p now = false)
    (hstored : FileTree.read t c.checksumPath.text = .ok stored)
    (hcurrent : c.project.checksum t = .ok current)
    (hequal : String.ofList (Text.trim stored.toList) = current) :
    (c.isValid t now).result = .ok true := by
  have hmatches : c.matchesSources t = .ok true := by
    rw [matchesSources, hstored, hcurrent]
    change Except.ok (decide (String.ofList (Text.trim stored.toList) = current)) = _
    rw [decide_eq_true hequal]
  rw [isValid_result, hload]
  dsimp only
  rw [hfresh, if_neg Bool.false_ne_true, missOnTreeError_result, hmatches]

/-- Where the profile has not just reached its lifetime, a cache is valid exactly when it is up to
date, and whether it is can be found out wherever loading ends as expected. -/
theorem isValid_iff_upToDate [AnsweringTree τ] (hage : ¬ c.AtLimit t now) :
    ((c.isValid t now).result = .ok true ↔ c.UpToDate t now) ∧
      (AnsweringTree.Takes τ c.checksumPath.text → AnsweringTree.Sound t →
        Settled (c.load t now).result → ∃ valid, (c.isValid t now).result = .ok valid) := by
  refine ⟨⟨fun hvalid => ?_, ?_⟩, fun htakes hsound hsettled => ?_⟩
  · obtain ⟨p, stored, current, hload, hfresh, hmatches⟩ := isValid_true hvalid
    have hbelow : p.age now < c.lifetime.micros :=
      lt_of_le_of_ne (isStale_false.mp hfresh) fun hlimit => hage ⟨p, hload, hlimit⟩
    exact ⟨p, stored, current, hload, hbelow, hmatches⟩
  · rintro ⟨p, stored, current, hload, hbelow, hstored, hcurrent, hequal⟩
    exact isValid_of_matches hload (isStale_false.mpr hbelow.le) hstored hcurrent hequal
  · exact (isValid_settled htakes hsound now).mpr hsettled

open MemoryTree

def startProfile : Profile where
  detectedAt := .ofClock (.double 0.0)

def startTree (k : String) : MemoryTree :=
  cached plainSource plainTest ⟨startProfile.document, .double 0.0⟩ ⟨k, .double 0.0⟩

theorem age_startProfile : startProfile.age (.ofClock (.double 3600.0)) = 3600000000 ∧
    startProfile.age (.ofClock (.double 86400.0)) = atRoot.lifetime.micros := by
  decide +kernel

theorem start_fresh {k : String} (hk : plainChecksum plainSource = .ok k)
    (hage : startProfile.age now ≤ atRoot.lifetime.micros) :
    (atRoot.load (startTree k) now).result = .ok (some startProfile) ∧
      (atRoot.isValid (startTree k) now).result = .ok true := by
  have hstorable : startProfile.Storable := ⟨rfl, by decide, by decide⟩
  have hchecksum : atRoot.project.checksum (startTree k) = .ok k :=
    (checksum_cached _ _ _ _).trans hk
  have hsaved := saved_cached plainSource plainTest k hstorable (.double 0.0) (.double 0.0) hchecksum
  obtain ⟨hprofile, -⟩ := read_cached plainSource plainTest ⟨startProfile.document, .double 0.0⟩
    ⟨k, .double 0.0⟩
  rw [← atRoot_profilePath] at hprofile
  exact hsaved.fresh hprofile hchecksum (isStale_false.mpr hage)

theorem isValid_iff_upToDate_start :
    ∃ k, ¬ atRoot.AtLimit (startTree k) (.ofClock (.double 3600.0)) ∧
      atRoot.UpToDate (startTree k) (.ofClock (.double 3600.0)) := by
  obtain ⟨k, hk⟩ := hashed_plain
  obtain ⟨hage, -⟩ := age_startProfile
  obtain ⟨hload, hvalid⟩ := start_fresh hk (hage.trans_le (by decide))
  have hbelow : ¬ atRoot.AtLimit (startTree k) (.ofClock (.double 3600.0)) := by
    rintro ⟨p, hp, hlimit⟩
    rw [hload] at hp
    cases hp
    rw [hage] at hlimit
    cases hlimit
  exact ⟨k, hbelow, (isValid_iff_upToDate hbelow).1.mp hvalid⟩

/-- A day after it was detected a profile is used that is not below its lifetime of a day. -/
theorem isValid_atLimit :
    ∃ k, Settled (atRoot.load (startTree k) (.ofClock (.double 86400.0))).result ∧
      (atRoot.isValid (startTree k) (.ofClock (.double 86400.0))).result = .ok true ∧
      ¬ atRoot.UpToDate (startTree k) (.ofClock (.double 86400.0)) := by
  obtain ⟨k, hk⟩ := hashed_plain
  obtain ⟨-, hage⟩ := age_startProfile
  obtain ⟨hload, hvalid⟩ := start_fresh hk hage.le
  refine ⟨k, .inl ⟨_, hload⟩, hvalid, ?_⟩
  rintro ⟨p, -, -, hp, hbelow, -⟩
  rw [hload] at hp
  cases hp
  exact absurd hage hbelow.ne

end JavaProfile.Cache
