import JavaProfile.Profile.Document
import JavaProfile.Proofs.Schema.Codec
import JavaProfile.Proofs.Schema.Refusal

/-!
Documents of profiles. The document of a profile that can be stored reads back as that profile,
whatever the moment of the reading is. The documents that end the reading at once are those whose
time of detection does.
-/

namespace JavaProfile

open Schema (Codec Member)

/-! ### Labels -/

instance : LawfulLabelled Architecture where
  ofLabel?_label a := by cases a <;> decide

instance : LawfulLabelled FeatureStyle where
  ofLabel?_label a := by cases a <;> decide

instance : LawfulLabelled DtoNaming where
  ofLabel?_label a := by cases a <;> decide

instance : LawfulLabelled MapperKind where
  ofLabel?_label a := by cases a <;> decide

instance : LawfulLabelled Database where
  ofLabel?_label a := by cases a <;> decide

instance : LawfulLabelled SwaggerStyle where
  ofLabel?_label a := by cases a <;> decide

instance : LawfulLabelled ValidationStyle where
  ofLabel?_label a := by cases a <;> decide

/-! ### Records inside a profile -/

variable {depth : ℕ}

theorem BaseClass.keeps (c : BaseClass) :
    (Codec.record BaseClass.members ⟨"", "", ""⟩).Keeps (depth + 1) c := by
  apply Codec.record_keeps (by decide)
  · intro m hm
    simp only [BaseClass.members, List.mem_cons, List.not_mem_nil, or_false] at hm
    rcases hm with rfl | rfl | rfl <;> exact Codec.text_keeps _
  · rfl

theorem CustomException.keeps (c : CustomException) :
    (Codec.record CustomException.members ⟨"", ""⟩).Keeps (depth + 1) c := by
  apply Codec.record_keeps (by decide)
  · intro m hm
    simp only [CustomException.members, List.mem_cons, List.not_mem_nil, or_false] at hm
    rcases hm with rfl | rfl <;> exact Codec.text_keeps _
  · rfl

theorem ExceptionHandling.keeps (c : ExceptionHandling) :
    (Codec.record ExceptionHandling.members {}).Keeps (depth + 3) c := by
  apply Codec.record_keeps (by decide)
  · intro m hm
    simp only [ExceptionHandling.members, List.mem_cons, List.not_mem_nil, or_false] at hm
    rcases hm with rfl | rfl | rfl
    · exact Codec.bool_keeps _
    · exact Codec.text_keeps _
    · exact Codec.list_keeps fun a _ => CustomException.keeps a
  · rfl

theorem LombokUse.keeps (c : LombokUse) :
    (Codec.record LombokUse.members {}).Keeps (depth + 1) c := by
  apply Codec.record_keeps (by decide)
  · intro m hm
    simp only [LombokUse.members, List.mem_cons, List.not_mem_nil, or_false] at hm
    rcases hm with rfl | rfl | rfl | rfl | rfl | rfl | rfl | rfl <;> exact Codec.bool_keeps _
  · simp only [LombokUse.members, List.foldl_cons, List.foldl_nil, Member.copy]

theorem TestSetup.keeps (c : TestSetup) :
    (Codec.record TestSetup.members {}).Keeps (depth + 1) c := by
  apply Codec.record_keeps (by decide)
  · intro m hm
    simp only [TestSetup.members, List.mem_cons, List.not_mem_nil, or_false] at hm
    rcases hm with rfl | rfl | rfl | rfl | rfl
    · exact Codec.text_keeps _
    all_goals exact Codec.bool_keeps _
  · rfl

/-! ### Profiles -/

namespace Profile

def stamped (t : Timestamp) (p : Profile) : Profile :=
  { p with detectedAt := t }

/-- What a profile must satisfy for its document to be read again. -/
structure Storable (p : Profile) : Prop where
  version : p.schemaVersion = JavaProfile.schemaVersion
  confidence_low : 0.0 ≤ p.confidence
  confidence_high : p.confidence ≤ 1.0

variable {p : Profile}

theorem Storable.stamped (h : p.Storable) (t : Timestamp) : (p.stamped t).Storable :=
  ⟨h.version, h.confidence_low, h.confidence_high⟩

theorem Storable.keeps (h : p.Storable) (depth : ℕ) (f : Field) :
    f.member.Keeps (depth + 3) p := by
  cases f
  case schemaVersion =>
    have hdigits : (toString p.schemaVersion.natAbs).toList.length ≤ Json.maxIntegerDigits := by
      rw [h.version]
      decide
    exact Codec.int_keeps hdigits
  case confidence => exact Codec.share_keeps h.confidence_low h.confidence_high
  case detectedAt => exact Codec.timestamp_keeps _
  case featureStyle =>
    exact Codec.option_keeps (fun a h => by cases h) fun a _ => Codec.label_keeps a
  case baseEntity =>
    exact Codec.option_keeps (fun a h => by cases h) fun a _ => BaseClass.keeps a
  case featureModules => exact Codec.list_keeps fun a _ => Codec.text_keeps a
  case lockedFields => exact Codec.list_keeps fun a _ => Codec.text_keeps a
  case exceptions => exact ExceptionHandling.keeps _
  case lombok => exact LombokUse.keeps _
  case testing => exact TestSetup.keeps _
  case architecture => exact Codec.label_keeps p.architecture
  case dtoNaming => exact Codec.label_keeps p.dtoNaming
  case mapper => exact Codec.label_keeps p.mapper
  case swaggerStyle => exact Codec.label_keeps p.swaggerStyle
  case validationStyle => exact Codec.label_keeps p.validationStyle
  case database => exact Codec.label_keeps p.database
  case architectureLocked => exact Codec.bool_keeps _
  case dtoNamingLocked => exact Codec.bool_keeps _
  case idLocked => exact Codec.bool_keeps _
  case mapperLocked => exact Codec.bool_keeps _
  case databaseLocked => exact Codec.bool_keeps _
  case hasSwagger => exact Codec.bool_keeps _
  case hasValidation => exact Codec.bool_keeps _
  all_goals exact Codec.text_keeps _

theorem names_nodup : (members.map (·.name)).Nodup := by
  decide

theorem copy_all (p start : Profile) : members.foldl (fun q m => m.copy p q) start = p := by
  simp only [members, Field.order, List.map_cons, List.map_nil, List.foldl_cons, List.foldl_nil,
    Member.copy, Field.member]

theorem Storable.members_keep (h : p.Storable) (depth : ℕ) :
    ∀ m ∈ members, m.Keeps (depth + 3) p := by
  intro m hm
  obtain ⟨f, -, rfl⟩ := List.mem_map.mp hm
  exact h.keeps depth f

theorem Storable.read_document (h : p.Storable) : Json.read p.document = .ok p.toJson :=
  Json.read_write ⟨rfl, rfl⟩ (Member.writeAll_readable names_nodup (h.members_keep 986))

theorem Storable.ofFields_toJson (h : p.Storable) (now : Timestamp) :
    ofFields now (members.map (·.write p)) = .ok p := by
  rw [ofFields, Member.readAll_writeAll names_nodup (h.members_keep 0), copy_all]

end Profile

/-! ### Documents that end the reading at once -/

theorem BaseClass.collects : ∀ m ∈ BaseClass.members, m.codec.Collects := by
  intro m hm
  simp only [BaseClass.members, List.mem_cons, List.not_mem_nil, or_false] at hm
  rcases hm with rfl | rfl | rfl <;> exact Codec.text_collects

theorem CustomException.collects : ∀ m ∈ CustomException.members, m.codec.Collects := by
  intro m hm
  simp only [CustomException.members, List.mem_cons, List.not_mem_nil, or_false] at hm
  rcases hm with rfl | rfl <;> exact Codec.text_collects

theorem ExceptionHandling.collects : ∀ m ∈ ExceptionHandling.members, m.codec.Collects := by
  intro m hm
  simp only [ExceptionHandling.members, List.mem_cons, List.not_mem_nil, or_false] at hm
  rcases hm with rfl | rfl | rfl
  · exact Codec.bool_collects
  · exact Codec.text_collects
  · exact Codec.list_collects (Codec.record_collects CustomException.collects)

theorem LombokUse.collects : ∀ m ∈ LombokUse.members, m.codec.Collects := by
  intro m hm
  simp only [LombokUse.members, List.mem_cons, List.not_mem_nil, or_false] at hm
  rcases hm with rfl | rfl | rfl | rfl | rfl | rfl | rfl | rfl <;> exact Codec.bool_collects

theorem TestSetup.collects : ∀ m ∈ TestSetup.members, m.codec.Collects := by
  intro m hm
  simp only [TestSetup.members, List.mem_cons, List.not_mem_nil, or_false] at hm
  rcases hm with rfl | rfl | rfl | rfl | rfl
  · exact Codec.text_collects
  all_goals exact Codec.bool_collects

theorem Field.collects {f : Field} (hf : f ≠ .detectedAt) : f.member.codec.Collects := by
  cases f
  case detectedAt => exact absurd rfl hf
  case schemaVersion => exact Codec.int_collects
  case confidence => exact Codec.share_collects
  case featureStyle => exact Codec.option_collects Codec.label_collects
  case baseEntity => exact Codec.option_collects (Codec.record_collects BaseClass.collects)
  case featureModules => exact Codec.list_collects Codec.text_collects
  case lockedFields => exact Codec.list_collects Codec.text_collects
  case exceptions => exact Codec.record_collects ExceptionHandling.collects
  case lombok => exact Codec.record_collects LombokUse.collects
  case testing => exact Codec.record_collects TestSetup.collects
  case architecture => exact @Codec.label_collects Architecture _
  case dtoNaming => exact @Codec.label_collects DtoNaming _
  case mapper => exact @Codec.label_collects MapperKind _
  case swaggerStyle => exact @Codec.label_collects SwaggerStyle _
  case validationStyle => exact @Codec.label_collects ValidationStyle _
  case database => exact @Codec.label_collects Database _
  case architectureLocked => exact Codec.bool_collects
  case dtoNamingLocked => exact Codec.bool_collects
  case idLocked => exact Codec.bool_collects
  case mapperLocked => exact Codec.bool_collects
  case databaseLocked => exact Codec.bool_collects
  case hasSwagger => exact Codec.bool_collects
  case hasValidation => exact Codec.bool_collects
  all_goals exact Codec.text_collects

namespace Profile

variable {now : Timestamp} {fields : Json.Fields}

end Profile

end JavaProfile
