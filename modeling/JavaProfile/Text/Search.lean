/-!
Tests for a text inside another one.
-/

namespace JavaProfile.Text

def occursIn (pattern : List Char) : List Char → Bool
  | [] => pattern.isEmpty
  | c :: cs => pattern.isPrefixOf (c :: cs) || occursIn pattern cs

theorem occursIn_iff (pattern cs : List Char) :
    occursIn pattern cs = true ↔ ∃ before after, cs = before ++ pattern ++ after := by
  induction cs with
  | nil =>
    constructor
    · intro h
      exact ⟨[], [], by have := List.isEmpty_iff.1 h; simp [this]⟩
    · rintro ⟨before, after, h⟩
      have := congrArg List.length h
      simp only [List.length_nil, List.length_append] at this
      have : pattern = [] := List.eq_nil_of_length_eq_zero (by omega)
      simp [occursIn, this]
  | cons c cs ih =>
    simp only [occursIn, Bool.or_eq_true, List.isPrefixOf_iff_prefix, ih]
    constructor
    · rintro (⟨after, h⟩ | ⟨before, after, rfl⟩)
      · exact ⟨[], after, by simp [h]⟩
      · exact ⟨c :: before, after, by simp⟩
    · rintro ⟨before, after, h⟩
      cases before with
      | nil => exact .inl ⟨after, by simpa using h.symm⟩
      | cons b before =>
        simp only [List.cons_append, List.cons.injEq] at h
        exact .inr ⟨before, after, h.2⟩

def includes (s pattern : String) : Bool :=
  occursIn pattern.toList s.toList

def endsWith (s ending : String) : Bool :=
  ending.toList.isSuffixOf s.toList

def startsWith (s beginning : String) : Bool :=
  beginning.toList.isPrefixOf s.toList

end JavaProfile.Text
