import JavaProfile.Proofs.Profile.Field
import JavaProfile.Proofs.Tree.Lawful
import JavaProfile.Proofs.Work.Run
import JavaProfile.Store.Basic

/-!
Loading a cached profile: what the text of its document decides.
-/

namespace JavaProfile

theorem Profile.Storable.notMem_document {p : Profile} (h : p.Storable) :
    '\r' ∉ p.document.toList := by
  have hreadable : Json.Readable 987 p.toJson :=
    Schema.Member.writeAll_readable names_nodup (h.members_keep 983)
  rw [document, Json.write, String.toList_ofList]
  exact Json.notMem_render ⟨rfl, rfl⟩ hreadable 0 [] List.not_mem_nil

namespace Cache

variable {τ : Type} [FileTree τ] {c : Cache} {p : Profile} {t : τ}

theorem fieldsOf_document (h : p.Storable) :
    c.fieldsOf p.document = .ok (Profile.members.map (·.write p)) := by
  rw [fieldsOf, h.read_document]
  rfl

theorem version_of_document (h : p.Storable) :
    Json.field? (Profile.members.map (·.write p)) Field.schemaVersion.name =
      some (.int schemaVersion) := by
  have hmem : Field.schemaVersion.member ∈ Profile.members :=
    List.mem_map_of_mem (Field.mem_order .schemaVersion)
  have hfield := Schema.Member.field?_write (r := p) Profile.names_nodup hmem
  rw [← h.version]
  exact hfield

theorem isCurrent_schemaVersion : isCurrent (some (.int schemaVersion)) = true := by
  decide

/-- The document of a profile parses to the profile at any time. -/
theorem parse_document (h : p.Storable) (now : Timestamp) :
    c.parse now p.document = .ok (some p) := by
  rw [parse, fieldsOf_document h]
  change (if isCurrent (Json.field? _ Field.schemaVersion.name) = true then _ else _) = _
  rw [version_of_document h, if_pos isCurrent_schemaVersion, h.ofFields_toJson now]
  rfl

/-! ### What parses -/

theorem eq_of_integral {x : Float} {n : ℤ} (heq : Number.compareInt 1 (Binary64.decode x) = .eq)
    (h : Schema.integral x = .ok n) : n = 1 := by
  rw [Schema.integral] at h
  split at h
  · next negative m e hdecode =>
    have hden : 0 < (Binary64.ratio m e).2 := by
      rw [Binary64.ratio]
      split
      · exact Nat.one_pos
      · rw [twoTo_eq]
        exact Nat.two_pow_pos _
    rw [hdecode, Number.compareInt] at heq
    rcases hratio : Binary64.ratio m e with ⟨num, den⟩
    rw [hratio] at heq hden h
    dsimp only at heq hden h
    rw [compare_eq_iff_eq, one_mul] at heq
    cases negative with
    | true =>
      simp only [Binary64.signed, if_true] at heq
      omega
    | false =>
      simp only [Binary64.signed, Bool.false_eq_true, if_false, Nat.cast_inj] at heq
      subst heq
      rw [Nat.mod_self, Nat.div_self hden] at h
      cases h
      rfl
  · cases h

theorem eq_of_isCurrent {v : Json} {n : ℤ} (hcurrent : isCurrent (some v) = true)
    (hread : Schema.readInt v = .ok n) : n = schemaVersion := by
  rcases v with _ | b | k | _ | _ | _
  · cases hcurrent
  · obtain rfl : b = true := hcurrent
    cases hread
    rfl
  · rcases k with k | x
    · cases hread
      have hone : (n == schemaVersion) = true := hcurrent
      simpa using hone
    · have heq : (!Number.isNotANumber (.double x) &&
          Number.compareInt 1 (Binary64.decode x) == .eq) = true := hcurrent
      rw [Bool.and_eq_true, beq_iff_eq] at heq
      exact eq_of_integral heq.2 hread
  · cases hcurrent
  · cases hcurrent
  · cases hcurrent

theorem share_of_readShare {v : Json} {x : Float} (h : Schema.readShare v = .ok x) :
    0.0 ≤ x ∧ x ≤ 1.0 := by
  rw [Schema.readShare] at h
  cases hread : Schema.readDouble v with
  | error e =>
    rw [hread] at h
    cases h
  | ok y =>
    rw [hread] at h
    change (if y ≤ 1.0 then if 0.0 ≤ y then Except.ok y else _ else _) = _ at h
    split at h
    · next hhigh =>
      split at h
      · next hlow =>
        cases h
        exact ⟨hlow, hhigh⟩
      · cases h
    · cases h

theorem storable_of_ofFields {fields : Json.Fields} {now : Timestamp}
    (hcurrent : isCurrent (Json.field? fields Field.schemaVersion.name) = true)
    (h : Profile.ofFields now fields = .ok p) : p.Storable := by
  have hversion := Field.shows_of_ofFields h .schemaVersion
  have hconfidence := Field.shows_of_ofFields h .confidence
  unfold Field.Shows at hversion hconfidence
  have hshare : 0.0 ≤ p.confidence ∧ p.confidence ≤ 1.0 := by
    split at hconfidence
    · rw [show p.confidence = 0.0 from hconfidence]
      exact ⟨by decide, by decide⟩
    · exact share_of_readShare hconfidence
  refine ⟨?_, hshare.1, hshare.2⟩
  split at hversion
  · next hnone =>
    rw [hnone] at hcurrent
    cases hcurrent
  · next v hv =>
    rw [hv] at hcurrent
    exact eq_of_isCurrent hcurrent hversion

theorem parse_ok {now : Timestamp} {text : String}
    (h : (c.parse now text).result = .ok (some p)) :
    ∃ fields, c.fieldsOf text = .ok fields ∧
      isCurrent (Json.field? fields Field.schemaVersion.name) = true ∧
      Profile.ofFields now fields = .ok p := by
  rw [parse] at h
  cases hfields : c.fieldsOf text with
  | error e =>
    rw [hfields] at h
    cases h
  | ok fields =>
    rw [hfields] at h
    change (if isCurrent _ = true then _ else _ : Outcome (Option Profile)).result = _ at h
    split at h
    · next hcurrent =>
      refine ⟨fields, rfl, hcurrent, ?_⟩
      cases hread : Profile.ofFields now fields with
      | ok q =>
        rw [hread] at h
        cases h
        rfl
      | error e =>
        rw [hread] at h
        cases e <;> cases h
    · cases h

theorem parse_of_fields {now : Timestamp} {text : String} {fields : Json.Fields}
    (hfields : c.fieldsOf text = .ok fields)
    (hcurrent : isCurrent (Json.field? fields Field.schemaVersion.name) = true)
    (h : Profile.ofFields now fields = .ok p) : c.parse now text = .ok (some p) := by
  rw [parse, hfields]
  change (if isCurrent (Json.field? fields Field.schemaVersion.name) = true then _ else _) = _
  rw [if_pos hcurrent, h]
  rfl

theorem storable_of_parse {now : Timestamp} {text : String}
    (h : (c.parse now text).result = .ok (some p)) : p.Storable := by
  obtain ⟨fields, -, hcurrent, hread⟩ := parse_ok h
  exact storable_of_ofFields hcurrent hread

/-- A text that parses does so at any time, and only the time of detection may differ. -/
theorem parse_later {now : Timestamp} {text : String}
    (h : (c.parse now text).result = .ok (some p)) (later : Timestamp) :
    ∃ q, c.parse later text = .ok (some q) ∧ ∀ t, q.stamped t = p.stamped t := by
  obtain ⟨fields, hfields, hcurrent, hread⟩ := parse_ok h
  have hsame (t : Timestamp) := @Profile.ofFields_stamped fields later now t
  rw [hread] at hsame
  cases hlater : Profile.ofFields later fields with
  | error e =>
    rw [hlater] at hsame
    cases hsame later
  | ok q =>
    rw [hlater] at hsame
    exact ⟨q, parse_of_fields hfields hcurrent hlater, fun t => Except.ok.inj (hsame t)⟩

theorem load_of_read [LawfulTree τ] {text : String}
    (h : FileTree.read t c.profilePath.text = .ok text) (now : Timestamp) :
    c.load t now = c.parse now text := by
  have hpresent : c.isPresent t = .ok true := by
    rw [isPresent, LawfulTree.contains_of_read h]
    rfl
  rw [load, hpresent, Outcome.ofExcept_ok, Outcome.ok_bind, if_pos rfl, h]

theorem load_ok {now : Timestamp} (h : (c.load t now).result = .ok (some p)) :
    ∃ text, FileTree.read t c.profilePath.text = .ok text ∧
      (c.parse now text).result = .ok (some p) := by
  rw [load, Outcome.bind_result] at h
  cases hpresent : c.isPresent t with
  | error e =>
    rw [hpresent] at h
    cases h
  | ok present =>
    cases present with
    | false =>
      rw [hpresent] at h
      cases h
    | true =>
      cases hread : FileTree.read t c.profilePath.text with
      | ok text =>
        rw [hpresent, hread] at h
        exact ⟨text, rfl, h⟩
      | error cause =>
        rw [hpresent, hread] at h
        cases h

/-! ### Validity -/

theorem missOnTreeError_result (c : Cache) (result : Except Failure Bool) :
    (c.missOnTreeError result).result =
      match result with
      | .ok b => .ok b
      | .error (.tree cause) => if cause.isSystem then .ok false else .error (.tree cause)
      | .error e => .error e := by
  rcases result with e | b
  · cases e
    case tree cause =>
      rw [missOnTreeError]
      dsimp only
      split <;> rfl
    all_goals rfl
  · rfl

theorem isValid_result (c : Cache) (t : τ) (now : Timestamp) :
    (c.isValid t now).result =
      match (c.load t now).result with
      | .error (.cache _) => .ok false
      | .error e => .error e
      | .ok none => .ok false
      | .ok (some p) =>
        if c.isStale p now then .ok false else (c.missOnTreeError (c.matchesSources t)).result := by
  rw [isValid, Outcome.bind_result]
  change Except.bind (.ok (c.load t now).result) _ = _
  rcases (c.load t now).result with e | _ | p
  · cases e <;> rfl
  · rfl
  · dsimp only [Except.bind]
    split <;> rfl

end Cache

end JavaProfile
