import Mathlib.Data.List.Nodup
import JavaProfile.Proofs.Profile.Document

/-!
Fields of a profile are independent of each other. What a document makes of a field depends on that
field alone, and no field but the time of detection depends on the moment of the reading.
-/

namespace JavaProfile

open Schema (Member Checked)

namespace Field

variable {f g : Field} {p q : Profile}

theorem get_set_self (f : Field) (x : f.member.Value) (p : Profile) :
    f.member.get (f.member.set x p) = x := by
  cases f <;> rfl

theorem get_set_other (hne : f ≠ g) (x : g.member.Value) (p : Profile) :
    f.member.get (g.member.set x p) = f.member.get p := by
  cases g <;> cases f <;> first | rfl | exact absurd rfl hne

theorem get_copy_self (f : Field) (source target : Profile) :
    f.member.get (f.copy source target) = f.member.get source :=
  get_set_self f _ target

theorem get_copy_other (hne : f ≠ g) (source target : Profile) :
    f.member.get (g.copy source target) = f.member.get target :=
  get_set_other hne _ target

theorem get_copies (fields : List Field) (source target : Profile) (f : Field) :
    f.member.get (fields.foldl (fun q g => g.copy source q) target) =
      if f ∈ fields then f.member.get source else f.member.get target := by
  induction fields generalizing target with
  | nil => rfl
  | cons g fields ih =>
    rw [List.foldl_cons, ih]
    by_cases hmem : f ∈ fields
    · rw [if_pos hmem, if_pos (List.mem_cons_of_mem g hmem)]
    · rw [if_neg hmem]
      by_cases heq : f = g
      · subst heq
        rw [if_pos List.mem_cons_self, get_copy_self]
      · rw [if_neg (by simp [heq, hmem]), get_copy_other heq]

theorem name_injective : Function.Injective name := by
  intro f g h
  have hnodup : (order.map name).Nodup := by
    have hnames := Profile.names_nodup
    rw [Profile.members, List.map_map] at hnames
    exact hnames
  exact List.inj_on_of_nodup_map hnodup (mem_order f) (mem_order g) h

/-! ### Reading -/

variable {fields : Json.Fields}

/-- A field of a document gives the field of the profile its value; where there is none, the field
stays what it is. -/
def Shows (fields : Json.Fields) (f : Field) (start p : Profile) : Prop :=
  match Json.field? fields f.name with
  | none => f.member.get p = f.member.get start
  | some v => f.member.codec.read v = .ok (f.member.get p)

theorem shows_of_read (h : f.member.read fields p = .ok q) : f.Shows fields p q := by
  rw [Member.read] at h
  unfold Shows
  rw [name]
  cases hfield : Json.field? fields f.member.name with
  | none =>
    rw [hfield] at h
    dsimp only at h ⊢
    split at h
    · cases h
    · cases h
      rfl
  | some v =>
    rw [hfield] at h
    dsimp only at h ⊢
    cases hread : f.member.codec.read v with
    | error e =>
      rw [hread] at h
      cases h
    | ok x =>
      rw [hread] at h
      cases h
      rw [get_set_self]

theorem get_of_read (hne : f ≠ g) (h : g.member.read fields p = .ok q) :
    f.member.get q = f.member.get p := by
  rw [Member.read] at h
  split at h
  · split at h
    · cases h
    · cases h
      rfl
  · next v hv =>
    cases hread : g.member.codec.read v with
    | error e =>
      rw [hread] at h
      cases h
    | ok x =>
      rw [hread] at h
      cases h
      exact get_set_other hne x p

theorem readAll_cons {m : Member Profile} {ms : List (Member Profile)}
    (h : Member.readAll fields (m :: ms) p = .ok q) :
    ∃ r, m.read fields p = .ok r ∧ Member.readAll fields ms r = .ok q := by
  rw [Member.readAll] at h
  split at h
  · next r hr => exact ⟨r, hr, h⟩
  · split at h <;> cases h

theorem get_of_readAll {fs : List Field} (hf : f ∉ fs)
    (h : Member.readAll fields (fs.map member) p = .ok q) :
    f.member.get q = f.member.get p := by
  induction fs generalizing p with
  | nil =>
    cases h
    rfl
  | cons g fs ih =>
    obtain ⟨r, hr, hrest⟩ := readAll_cons h
    obtain ⟨hne, hmem⟩ := not_or.mp (mt List.mem_cons.mpr hf)
    rw [ih hmem hrest, get_of_read hne hr]

theorem shows_of_readAll {fs : List Field} (hnodup : fs.Nodup) (hf : f ∈ fs)
    (h : Member.readAll fields (fs.map member) p = .ok q) : f.Shows fields p q := by
  induction fs generalizing p with
  | nil => cases hf
  | cons g fs ih =>
    obtain ⟨r, hr, hrest⟩ := readAll_cons h
    obtain ⟨hg, hnodup⟩ := List.nodup_cons.mp hnodup
    rcases List.mem_cons.mp hf with rfl | hfs
    · have hshows := shows_of_read hr
      unfold Shows at hshows ⊢
      rw [get_of_readAll hg hrest]
      exact hshows
    · have hne : f ≠ g := by
        rintro rfl
        exact hg hfs
      have hshows := ih hnodup hfs hrest
      unfold Shows at hshows ⊢
      rw [get_of_read hne hr] at hshows
      exact hshows

/-- Every field of a profile is as its document shows it. -/
theorem shows_of_ofFields {now : Timestamp} (h : Profile.ofFields now fields = .ok p) (f : Field) :
    f.Shows fields { detectedAt := now } p :=
  shows_of_readAll (List.Nodup.of_map _ (by decide : (order.map name).Nodup)) (mem_order f) h

end Field

/-! ### The moment of the reading -/

namespace Profile

variable {fields : Json.Fields}

theorem set_stamped (f : Field) (x : f.member.Value) (t : Timestamp) (p : Profile) :
    f.member.set x (p.stamped t) = (f.member.set x p).stamped t ∨
      f.member.set x (p.stamped t) = f.member.set x p := by
  cases f
  case detectedAt => exact .inr rfl
  all_goals exact .inl rfl

theorem get_stamped {f : Field} (hf : f ≠ .detectedAt) (t : Timestamp) (p : Profile) :
    f.member.get (p.stamped t) = f.member.get p :=
  Field.get_set_other (g := .detectedAt) hf t p

theorem read_stamped (f : Field) (t : Timestamp) (p : Profile) :
    f.member.read fields (p.stamped t) = (f.member.read fields p).map (stamped t) ∨
      f.member.read fields (p.stamped t) = f.member.read fields p := by
  rw [Member.read, Member.read]
  cases Json.field? fields f.member.name with
  | none =>
    left
    dsimp only
    split <;> rfl
  | some v =>
    dsimp only
    cases f.member.codec.read v with
    | error e => exact .inr rfl
    | ok x =>
      rcases set_stamped f x t p with h | h
      · exact .inl (congrArg Except.ok h)
      · exact .inr (congrArg Except.ok h)

theorem readAll_stamped (fs : List Field) (t later : Timestamp) (p : Profile) :
    (Member.readAll fields (fs.map Field.member) (p.stamped t)).map (stamped later) =
      (Member.readAll fields (fs.map Field.member) p).map (stamped later) := by
  -- The time is covered by the later one at the end, be it read on the way or not.
  induction fs generalizing p with
  | nil => rfl
  | cons f fs ih =>
    rw [List.map_cons, Member.readAll, Member.readAll]
    cases hread : f.member.read fields p with
    | ok q =>
      rcases @read_stamped fields f t p with h | h
      · rw [h, hread]
        exact ih q
      · rw [h, hread]
    | error e =>
      have hstamped : f.member.read fields (p.stamped t) = .error e := by
        rcases @read_stamped fields f t p with h | h
        · rw [h, hread]
          rfl
        · rw [h, hread]
      rw [hstamped]
      dsimp only
      have hrest := ih p
      cases hall : Member.readAll fields (fs.map Field.member) p with
      | ok q =>
        rw [hall] at hrest
        cases hall' : Member.readAll fields (fs.map Field.member) (p.stamped t) with
        | ok q' => rfl
        | error e' =>
          rw [hall'] at hrest
          cases hrest
      | error e' =>
        rw [hall] at hrest
        cases hall' : Member.readAll fields (fs.map Field.member) (p.stamped t) with
        | ok q' =>
          rw [hall'] at hrest
          cases hrest
        | error e'' =>
          rw [hall'] at hrest
          cases hrest
          rfl

theorem ofFields_stamped (now later t : Timestamp) :
    (ofFields now fields).map (stamped t) = (ofFields later fields).map (stamped t) :=
  readAll_stamped Field.order now t { detectedAt := later }

end Profile

end JavaProfile
