import JavaProfile.Proofs.Schema.Codec

/-!
How reading a document ends where a part of it cannot be read. All flaws are collected, but for a
moment beyond the years 1 to 9999, which ends the reading wherever it stands.
-/

namespace JavaProfile.Schema

theorem Rejection.both_eq {r r' : Rejection} :
    r.both r' = .dateOutOfRange ↔ r = .dateOutOfRange ∨ r' = .dateOutOfRange := by
  cases r <;> cases r' <;> simp [both]

theorem Rejection.beneath_eq {s : Step} {r : Rejection} :
    r.beneath s = .dateOutOfRange ↔ r = .dateOutOfRange := by
  cases r <;> simp [beneath]

namespace Checked

variable {α β : Type}

/-- What is read is a value or a list of flaws. -/
def Collects (x : Checked α) : Prop :=
  x ≠ .error .dateOutOfRange

theorem collects_ok (a : α) : Collects (.ok a) := by
  intro h
  cases h

theorem collects_fail (f : Flaw) : Collects (fail f : Checked α) := by
  intro h
  cases h

theorem beneath_eq {s : Step} {x : Checked α} :
    beneath s x = .error .dateOutOfRange ↔ x = .error .dateOutOfRange := by
  cases x with
  | ok a => simp [beneath]
  | error r => simp [beneath, Rejection.beneath_eq]

theorem map_eq {f : α → β} {x : Checked α} :
    x.map f = .error .dateOutOfRange ↔ x = .error .dateOutOfRange := by
  cases x <;> simp [Except.map]

theorem Collects.pair {x : Checked α} {y : Checked β} (hx : x.Collects) (hy : y.Collects) :
    (Checked.pair x y).Collects := by
  intro h
  rcases x with r | a <;> rcases y with r' | b
  · rcases Rejection.both_eq.mp (Except.error.inj h) with rfl | rfl
    · exact hx rfl
    · exact hy rfl
  · obtain rfl : r = _ := Except.error.inj h
    exact hx rfl
  · obtain rfl : r' = _ := Except.error.inj h
    exact hy rfl
  · cases h

end Checked

open Checked

namespace Codec

/-- Whatever the codec reads is a value or a list of flaws. -/
def Collects {α : Type} (c : Codec α) : Prop :=
  ∀ v, (c.read v).Collects

variable {α : Type}

theorem integral_collects (x : Float) : (integral x).Collects := by
  unfold integral
  split
  · dsimp only
    split
    · exact collects_fail _
    · split
      · exact collects_fail _
      · exact collects_ok _
  · exact collects_fail _

theorem int_collects : int.Collects := by
  intro v
  change (readInt v).Collects
  unfold readInt
  split
  · exact collects_ok _
  · exact integral_collects _
  · exact collects_ok _
  · unfold integerOfText
    split
    · exact collects_fail _
    · split
      · exact collects_ok _
      · exact collects_fail _
  · exact collects_fail _

theorem readDouble_collects (v : Json) : (readDouble v).Collects := by
  unfold readDouble
  split
  · split
    · exact collects_ok _
    · exact collects_fail _
  · exact collects_ok _
  · split
    · exact collects_ok _
    · exact collects_fail _
  · exact collects_fail _

theorem share_collects : share.Collects := by
  intro v
  have hread := readDouble_collects v
  change (readShare v).Collects
  rw [readShare]
  cases hx : readDouble v with
  | error r =>
    rw [hx] at hread
    exact hread
  | ok x =>
    change Checked.Collects (if x ≤ 1.0 then if 0.0 ≤ x then .ok x else fail .belowMinimum
      else fail .aboveMaximum)
    split
    · split
      · exact collects_ok _
      · exact collects_fail _
    · exact collects_fail _

theorem truthOfInt_collects (n : ℤ) : (truthOfInt n).Collects := by
  unfold truthOfInt
  split
  · exact collects_ok _
  · split
    · exact collects_ok _
    · split
      · exact collects_fail _
      · exact collects_fail _

theorem bool_collects : bool.Collects := by
  intro v
  change (readBool v).Collects
  unfold readBool
  split
  · exact collects_ok _
  · exact truthOfInt_collects _
  · split
    · exact truthOfInt_collects _
    · exact collects_fail _
  · split
    · exact collects_ok _
    · exact collects_fail _
  · exact collects_fail _

theorem text_collects : text.Collects := by
  intro v
  change (readText v).Collects
  unfold readText
  split
  · exact collects_ok _
  · exact collects_fail _

theorem label_collects [Labelled α] : (label : Codec α).Collects := by
  intro v
  change (readLabel v : Checked α).Collects
  unfold readLabel
  split
  · split
    · exact collects_ok _
    · exact collects_fail _
  · exact collects_fail _

theorem readItems_collects {c : Codec α} (hc : c.Collects) (n : ℕ) (vs : List Json) :
    (readItems c n vs).Collects := by
  induction vs generalizing n with
  | nil => exact collects_ok _
  | cons v vs ih =>
    rw [readItems, Checked.Collects, ne_eq, map_eq]
    refine Checked.Collects.pair ?_ (ih (n + 1))
    rw [Checked.Collects, ne_eq, beneath_eq]
    exact hc v

theorem list_collects {c : Codec α} (hc : c.Collects) : (list c).Collects := by
  intro v
  cases v with
  | array vs => exact readItems_collects hc 0 vs
  | _ => exact collects_fail _

theorem option_collects {c : Codec α} (hc : c.Collects) : (option c).Collects := by
  intro v
  have hread := hc v
  cases v with
  | null => exact collects_ok _
  | _ => exact fun h => hread (map_eq.mp h)

end Codec

/-! ### Records -/

namespace Member

variable {ρ : Type} {fields : Json.Fields}

theorem read_eq {m : Member ρ} {r : ρ} :
    m.read fields r = .error .dateOutOfRange ↔
      ∃ v, Json.field? fields m.name = some v ∧ m.codec.read v = .error .dateOutOfRange := by
  rw [read]
  cases Json.field? fields m.name with
  | none =>
    by_cases hrequired : m.required = true
    · simp [hrequired]
    · simp [hrequired]
  | some v =>
    dsimp only
    rw [beneath_eq, map_eq]
    simp

theorem readAll_eq {ms : List (Member ρ)} {r : ρ} :
    readAll fields ms r = .error .dateOutOfRange ↔
      ∃ m ∈ ms, ∃ v, Json.field? fields m.name = some v ∧
        m.codec.read v = .error .dateOutOfRange := by
  induction ms generalizing r with
  | nil => simp [readAll]
  | cons m ms ih =>
    rw [readAll, List.exists_mem_cons_iff, ← read_eq (r := r)]
    -- A flaw does not end the reading, so a date out of range is found behind it too.
    cases hread : m.read fields r with
    | ok r' =>
      dsimp only
      rw [ih]
      simp
    | error e =>
      dsimp only
      rw [← ih (r := r)]
      cases hrest : readAll fields ms r with
      | ok r' => simp
      | error e' => simp [Rejection.both_eq]

end Member

theorem Codec.record_collects {ρ : Type} {ms : List (Member ρ)} {start : ρ}
    (h : ∀ m ∈ ms, m.codec.Collects) : (Codec.record ms start).Collects := by
  intro v hread
  cases v with
  | object fields =>
    obtain ⟨m, hm, v, -, hv⟩ := Member.readAll_eq.mp hread
    exact h m hm v hv
  | _ => cases hread

end JavaProfile.Schema
