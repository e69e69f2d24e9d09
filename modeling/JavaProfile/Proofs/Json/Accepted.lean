import JavaProfile.Proofs.Json.Reader

/-!
Values that were read from texts. They are not nested beyond the limit, no integer in them is too
long and no object has a key twice, so that they can be written and read again.
-/

namespace JavaProfile

theorem bind_eq_ok {ε α β : Type} {x : Except ε α} {f : α → Except ε β} {b : β} :
    x >>= f = .ok b ↔ ∃ a, x = .ok a ∧ f a = .ok b := by
  cases x <;> simp [bind, Except.bind]

namespace Json

variable {depth fuel : ℕ} {cs rest : List Char} {v : Json}

/-- No string of the value has half of a surrogate pair. -/
inductive Unbroken : Json → Prop
  | null : Unbroken null
  | bool (b : Bool) : Unbroken (bool b)
  | number (n : Number) : Unbroken (number n)
  | text (s : String) : Unbroken (string s)
  | array {items : List Json} (h : ∀ v ∈ items, Unbroken v) : Unbroken (array items)
  | object {fields : Fields} (hkeys : ∀ f ∈ fields, ∃ s : String, f.1 = s)
    (h : ∀ f ∈ fields, Unbroken f.2) : Unbroken (object fields)

theorem Readable.unbroken (h : Readable depth v) : v.Unbroken := by
  induction h with
  | null => exact .null
  | bool b => exact .bool b
  | int => exact .number _
  | double x => exact .number _
  | text s => exact .text s
  | array _ ih => exact .array ih
  | object hkeys _ _ ih => exact .object hkeys ih

/-! ### Numbers and words -/

theorem ofDigits_lt {digits : List Char} (h : ∀ c ∈ digits, c.isDigit) :
    Decimal.ofDigits digits < 10 ^ digits.length := by
  induction digits using List.reverseRecOn with
  | nil => decide
  | append_singleton digits c ih =>
    have hinit := ih fun d hd => h d (List.mem_append_left _ hd)
    have hc : c.isDigit := h c (by simp)
    have hlast : Decimal.ofDigits [c] < 10 := by
      simp only [Char.isDigit, Bool.and_eq_true, decide_eq_true_eq] at hc
      simp only [Decimal.ofDigits, List.foldl_cons, List.foldl_nil]
      have hle : c.toNat ≤ 57 := hc.2
      have hzero : '0'.toNat = 48 := rfl
      omega
    rw [Decimal.ofDigits_append, List.length_append, List.length_singleton, pow_succ]
    omega

theorem length_ofDigits_le {digits : List Char} (hne : digits ≠ [])
    (h : ∀ c ∈ digits, c.isDigit) :
    (toString (Decimal.ofDigits digits)).toList.length ≤ digits.length := by
  rw [String.length_toList]
  exact Nat.repr_length _ _ (List.length_pos_iff.mpr hne) (ofDigits_lt h)

theorem splitWhole?_digits {whole : List Char} (h : splitWhole? cs = some (whole, rest)) :
    whole ≠ [] ∧ ∀ c ∈ whole, c.isDigit := by
  cases cs with
  | nil => cases h
  | cons c cs =>
    rw [splitWhole?] at h
    split at h
    · next hzero =>
      cases h
      simp [hzero]
    · split at h
      · next hdigit =>
        cases h
        refine ⟨by simp, ?_⟩
        rw [List.forall_mem_cons]
        exact ⟨hdigit, fun d hd => List.mem_takeWhile_imp hd⟩
      · cases h

theorem natAbs_signed (negative : Bool) (n : ℕ) : (Binary64.signed negative n).natAbs = n := by
  cases negative <;> simp [Binary64.signed]

theorem readable_of_readNumber {start : List Char} {negative : Bool}
    (h : readNumber start negative cs = .ok (v, rest)) : Readable depth v := by
  unfold readNumber at h
  split at h
  · cases h
  · next whole after hwhole =>
    obtain ⟨hne, hdigits⟩ := splitWhole?_digits hwhole
    dsimp only at h
    split at h
    · split at h
      · cases h
      · next hshort =>
        cases h
        apply Readable.int
        rw [natAbs_signed]
        have hle := length_ofDigits_le hne hdigits
        omega
    · cases h
      exact .double _

theorem readable_of_readPlain (h : readPlain cs = .ok (v, rest)) : Readable depth v := by
  unfold readPlain at h
  split at h
  · next r hword =>
    obtain ⟨word, hmem, hafter⟩ := List.exists_of_findSome?_eq_some hword
    obtain ⟨after, -, rfl⟩ := Option.map_eq_some_iff.mp hafter
    cases h
    simp only [words, List.mem_cons, List.not_mem_nil, or_false] at hmem
    rcases hmem with rfl | rfl | rfl | rfl | rfl | rfl
    · exact .null
    · exact .bool _
    · exact .bool _
    · exact .double _
    · exact .double _
    · exact .double _
  · split at h
    · exact readable_of_readNumber h
    · exact readable_of_readNumber h

/-! ### Objects -/

theorem keys_put (fields : Fields) (key : JsonString) (value : Json) :
    (put fields key value).map Prod.fst =
      if key ∈ fields.map Prod.fst then fields.map Prod.fst else fields.map Prod.fst ++ [key] := by
  induction fields with
  | nil => rfl
  | cons f fields ih =>
    obtain ⟨k, w⟩ := f
    rw [put]
    by_cases hk : k = key
    · simp [hk]
    · have hne : key ≠ k := Ne.symm hk
      simp only [if_neg hk, List.map_cons, ih, List.mem_cons, hne, false_or]
      split <;> simp

theorem nodup_keys_put {fields : Fields} (h : (fields.map Prod.fst).Nodup) (key : JsonString)
    (value : Json) : ((put fields key value).map Prod.fst).Nodup := by
  rw [keys_put]
  split
  · exact h
  · next hnew =>
    rw [← List.concat_eq_append]
    exact h.concat hnew

theorem mem_put {fields : Fields} {key : JsonString} {value : Json} {f : JsonString × Json}
    (h : f ∈ put fields key value) : f = (key, value) ∨ f ∈ fields := by
  induction fields with
  | nil => simpa [put] using h
  | cons g fields ih =>
    rw [put] at h
    split at h
    · exact (List.mem_cons.mp h).imp_right (List.mem_cons_of_mem g)
    · rcases List.mem_cons.mp h with rfl | h
      · exact .inr List.mem_cons_self
      · exact (ih h).imp_right (List.mem_cons_of_mem g)

theorem collect_append (members : Fields) (m : JsonString × Json) :
    collect (members ++ [m]) = put (collect members) m.1 m.2 := by
  rw [collect, List.foldl_append, List.foldl_cons, List.foldl_nil, collect]

theorem nodup_keys_collect (members : Fields) : ((collect members).map Prod.fst).Nodup := by
  induction members using List.reverseRecOn with
  | nil => exact List.nodup_nil
  | append_singleton members m ih =>
    rw [collect_append]
    exact nodup_keys_put ih _ _

theorem mem_of_mem_collect {members : Fields} {f : JsonString × Json} (h : f ∈ collect members) :
    f ∈ members := by
  induction members using List.reverseRecOn with
  | nil => exact h
  | append_singleton members m ih =>
    rw [collect_append] at h
    rcases mem_put h with rfl | h
    · simp
    · exact List.mem_append_left _ (ih h)

/-! ### What was read -/

theorem readValue_ok (h : readValue (fuel + 1) depth cs = .ok (v, rest)) :
    (∃ s, v = string s) ∨ readPlain cs = .ok (v, rest) ∨
      ∃ d, depth = d + 1 ∧
        (v = array [] ∨ v = object [] ∨
          (∃ inner items, readItems fuel d inner = .ok (items, rest) ∧ v = array items) ∨
          ∃ inner members, readMembers fuel d inner = .ok (members, rest) ∧
            v = object (collect members)) := by
  cases cs with
  | nil => cases h
  | cons c cs =>
    rw [readValue.eq_def] at h
    dsimp only at h
    split_ifs at h
    · obtain ⟨⟨s, after⟩, -, h⟩ := bind_eq_ok.mp h
      cases h
      exact .inl ⟨s, rfl⟩
    · split at h
      · cases h
      · cases h
        exact .inr (.inr ⟨_, rfl, .inl rfl⟩)
      · obtain ⟨⟨items, after⟩, hitems, h⟩ := bind_eq_ok.mp h
        cases h
        exact .inr (.inr ⟨_, rfl, .inr (.inr (.inl ⟨_, items, hitems, rfl⟩))⟩)
    · split at h
      · cases h
      · cases h
        exact .inr (.inr ⟨_, rfl, .inr (.inl rfl)⟩)
      · obtain ⟨⟨members, after⟩, hmembers, h⟩ := bind_eq_ok.mp h
        cases h
        exact .inr (.inr ⟨_, rfl, .inr (.inr (.inr ⟨_, members, hmembers, rfl⟩))⟩)
    · exact .inr (.inl h)

theorem readItems_ok {items : List Json} (h : readItems (fuel + 1) depth cs = .ok (items, rest)) :
    ∃ w after, readValue fuel depth cs = .ok (w, after) ∧
      (items = [w] ∨
        ∃ next ws, readItems fuel depth next = .ok (ws, rest) ∧ items = w :: ws) := by
  rw [readItems] at h
  obtain ⟨⟨w, after⟩, hvalue, h⟩ := bind_eq_ok.mp h
  refine ⟨w, after, hvalue, ?_⟩
  dsimp only at h
  split at h
  · cases h
    exact .inl rfl
  · obtain ⟨⟨ws, last⟩, hitems, h⟩ := bind_eq_ok.mp h
    cases h
    exact .inr ⟨_, ws, hitems, rfl⟩
  · cases h

theorem readMembers_ok {members : Fields}
    (h : readMembers (fuel + 1) depth cs = .ok (members, rest)) :
    ∃ key text w after, readValue fuel depth text = .ok (w, after) ∧
      (members = [(key, w)] ∨
        ∃ next ms, readMembers fuel depth next = .ok (ms, rest) ∧ members = (key, w) :: ms) := by
  rw [readMembers.eq_def] at h
  dsimp only at h
  split at h
  · obtain ⟨⟨key, afterKey⟩, -, h⟩ := bind_eq_ok.mp h
    dsimp only at h
    split at h
    · obtain ⟨⟨w, after⟩, hvalue, h⟩ := bind_eq_ok.mp h
      refine ⟨key, _, w, after, hvalue, ?_⟩
      dsimp only at h
      split at h
      · cases h
        exact .inl rfl
      · obtain ⟨⟨ms, last⟩, hmembers, h⟩ := bind_eq_ok.mp h
        cases h
        exact .inr ⟨_, ms, hmembers, rfl⟩
      · cases h
    · cases h
  · cases h

theorem readable_of_readers (fuel : ℕ) :
    (∀ {depth cs v rest}, readValue fuel depth cs = .ok (v, rest) → v.Unbroken →
        Readable depth v) ∧
      (∀ {depth cs items rest}, readItems fuel depth cs = .ok (items, rest) →
        ∀ v ∈ items, v.Unbroken → Readable depth v) ∧
      ∀ {depth cs members rest}, readMembers fuel depth cs = .ok (members, rest) →
        ∀ m ∈ members, m.2.Unbroken → Readable depth m.2 := by
  -- The three readers call each other with less fuel, so one induction serves them all.
  induction fuel with
  | zero =>
    refine ⟨fun h => ?_, fun h => ?_, fun h => ?_⟩
    all_goals cases h
  | succ fuel ih =>
    obtain ⟨ihValue, ihItems, ihMembers⟩ := ih
    refine ⟨fun h hv => ?_, fun h => ?_, fun h => ?_⟩
    · rcases readValue_ok h with ⟨s, rfl⟩ | hplain | ⟨d, rfl, hcase⟩
      · cases hv with
        | text s => exact .text s
      · exact readable_of_readPlain hplain
      · rcases hcase with rfl | rfl | ⟨inner, items, hitems, rfl⟩ | ⟨inner, members, hmembers, rfl⟩
        · exact .array (by simp)
        · exact .object (by simp) List.nodup_nil (by simp)
        · cases hv with
          | array hall => exact .array fun w hw => ihItems hitems w hw (hall w hw)
        · -- A member that a later one replaces need not be unbroken, as it is not in the object.
          cases hv with
          | object hkeys hall =>
            apply Readable.object hkeys (nodup_keys_collect members)
            exact fun f hf => ihMembers hmembers f (mem_of_mem_collect hf) (hall f hf)
    · obtain ⟨w, after, hvalue, rfl | ⟨next, ws, hitems, rfl⟩⟩ := readItems_ok h
      · simpa using ihValue hvalue
      · rw [List.forall_mem_cons]
        exact ⟨ihValue hvalue, ihItems hitems⟩
    · obtain ⟨key, text, w, after, hvalue, rfl | ⟨next, ms, hmembers, rfl⟩⟩ := readMembers_ok h
      · simpa using ihValue hvalue
      · rw [List.forall_mem_cons]
        exact ⟨ihValue hvalue, ihMembers hmembers⟩

/-- A value without halves of surrogate pairs can be written once it was read. -/
theorem readable_of_read {text : String} (h : read text = .ok v) (hv : v.Unbroken) :
    Readable maxDepth v := by
  rw [read] at h
  split at h
  · next w hread =>
    cases h
    rw [readText] at hread
    split at hread
    · cases hread
    · obtain ⟨⟨w, rest⟩, hvalue, hread⟩ := bind_eq_ok.mp hread
      dsimp only at hread
      split at hread
      · cases hread
        exact (readable_of_readers _).1 hvalue hv
      · cases hread
  · cases h

end Json

end JavaProfile
