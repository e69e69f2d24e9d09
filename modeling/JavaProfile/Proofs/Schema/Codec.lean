import JavaProfile.Proofs.Json.Reader
import JavaProfile.Proofs.Time.Timestamp
import JavaProfile.Schema.Codec

/-!
Codecs that lose nothing. What such a codec writes survives as a JSON text and reads back as the
value it was, and so it does for lists, for parts that may be absent and for records.
-/

namespace JavaProfile

open Json (Readable)

/-- No two members of a finite kind have one label. -/
class LawfulLabelled (α : Type) [Labelled α] : Prop where
  ofLabel?_label (a : α) : ofLabel? (label a) = some a

namespace Schema

/-- A value that the codec writes for JSON texts to keep, and that it reads back. -/
structure Codec.Keeps {α : Type} (c : Codec α) (depth : ℕ) (a : α) : Prop where
  readable : Readable depth (c.write a)
  read_write : c.read (c.write a) = .ok a

namespace Codec

variable {α : Type} {depth : ℕ}

theorem int_keeps {n : ℤ} (h : (toString n.natAbs).toList.length ≤ Json.maxIntegerDigits) :
    int.Keeps depth n :=
  ⟨.int h, rfl⟩

theorem share_keeps {x : Float} (hlow : 0.0 ≤ x) (hhigh : x ≤ 1.0) : share.Keeps depth x := by
  refine ⟨.double x, ?_⟩
  change readShare (.double x) = .ok x
  have hread : readDouble (.double x) = .ok x := rfl
  rw [readShare, hread]
  simp only [bind, Except.bind, if_pos hhigh, if_pos hlow]
  rfl

theorem bool_keeps (b : Bool) : bool.Keeps depth b :=
  ⟨.bool b, rfl⟩

theorem text_keeps (s : String) : text.Keeps depth s :=
  ⟨.text s, rfl⟩

theorem readTimestamp_write (t : Timestamp) :
    readTimestamp (.string (.text t.write)) = .ok t := by
  unfold readTimestamp
  simp only [Timestamp.read_write]

theorem timestamp_keeps (t : Timestamp) : timestamp.Keeps depth t := by
  have hwrite : timestamp.write t = .string (.text t.write) := rfl
  have hread : timestamp.read = readTimestamp := rfl
  constructor
  · rw [hwrite]
    exact .text t.write
  · rw [hwrite, hread, readTimestamp_write]

theorem label_keeps [Labelled α] [LawfulLabelled α] (a : α) : (label : Codec α).Keeps depth a := by
  refine ⟨.text _, ?_⟩
  change readLabel (.string (.text (Labelled.label a))) = .ok a
  rw [readLabel, LawfulLabelled.ofLabel?_label]

theorem readItems_map {c : Codec α} {items : List α} (h : ∀ a ∈ items, c.Keeps depth a) (n : ℕ) :
    readItems c n (items.map c.write) = .ok items := by
  induction items generalizing n with
  | nil => rfl
  | cons a items ih =>
    rw [List.map_cons, readItems, (h a List.mem_cons_self).read_write,
      ih fun b hb => h b (List.mem_cons_of_mem a hb)]
    rfl

theorem list_keeps {c : Codec α} {items : List α} (h : ∀ a ∈ items, c.Keeps depth a) :
    (list c).Keeps (depth + 1) items := by
  refine ⟨.array ?_, readItems_map h 0⟩
  intro v hv
  obtain ⟨a, ha, rfl⟩ := List.mem_map.mp hv
  exact (h a ha).readable

theorem option_keeps {c : Codec α} {o : Option α} (hnull : ∀ a, c.write a ≠ .null)
    (h : ∀ a ∈ o, c.Keeps depth a) : (option c).Keeps depth o := by
  cases o with
  | none => exact ⟨.null, rfl⟩
  | some a =>
    obtain ⟨hreadable, hread⟩ := h a rfl
    refine ⟨hreadable, ?_⟩
    have hsome : (option c).read (c.write a) = (c.read (c.write a)).map some := by
      have hne := hnull a
      revert hne
      cases c.write a with
      | null => exact fun hne => absurd rfl hne
      | _ => exact fun _ => rfl
    exact hsome.trans (by rw [hread]; rfl)

end Codec

/-! ### Records -/

namespace Member

variable {ρ : Type} {depth : ℕ} {r : ρ} {ms : List (Member ρ)}

/-- A record one of whose parts is written without loss. -/
def Keeps (m : Member ρ) (depth : ℕ) (r : ρ) : Prop :=
  m.codec.Keeps depth (m.get r)

theorem field?_write (hnodup : (ms.map (·.name)).Nodup) {m : Member ρ} (hm : m ∈ ms) :
    Json.field? (ms.map (·.write r)) m.name = some (m.codec.write (m.get r)) := by
  induction ms with
  | nil => cases hm
  | cons m' ms ih =>
    rw [List.map_cons, List.nodup_cons] at hnodup
    rw [Json.field?, List.map_cons, write, List.lookup_cons]
    rcases List.mem_cons.mp hm with rfl | hm
    · simp
    · have hne : m.name ≠ m'.name := by
        intro heq
        exact hnodup.1 (heq ▸ List.mem_map_of_mem hm)
      have hkey : ((m.name : JsonString) == (m'.name : JsonString)) = false := by
        simpa [beq_eq_false_iff_ne] using hne
      rw [hkey]
      exact ih hnodup.2 hm

theorem readAll_of_fields {fields : Json.Fields} (hkeeps : ∀ m ∈ ms, m.Keeps depth r)
    (hfields : ∀ m ∈ ms, Json.field? fields m.name = some (m.codec.write (m.get r))) (start : ρ) :
    readAll fields ms start = .ok (ms.foldl (fun q m => m.copy r q) start) := by
  induction ms generalizing start with
  | nil => rfl
  | cons m ms ih =>
    have hread : m.read fields start = .ok (m.copy r start) := by
      rw [read, hfields m List.mem_cons_self]
      simp only [(hkeeps m List.mem_cons_self).read_write]
      rfl
    rw [readAll, hread]
    exact ih (fun x hx => hkeeps x (List.mem_cons_of_mem m hx))
      (fun x hx => hfields x (List.mem_cons_of_mem m hx)) _

/-- Reading the parts of a record gives them to whatever record the reading starts with. -/
theorem readAll_writeAll (hnodup : (ms.map (·.name)).Nodup) (hkeeps : ∀ m ∈ ms, m.Keeps depth r)
    (start : ρ) :
    readAll (ms.map (·.write r)) ms start = .ok (ms.foldl (fun q m => m.copy r q) start) :=
  readAll_of_fields hkeeps (fun _ hm => field?_write hnodup hm) start

theorem writeAll_readable (hnodup : (ms.map (·.name)).Nodup)
    (hkeeps : ∀ m ∈ ms, m.Keeps depth r) : Readable (depth + 1) (writeAll ms r) := by
  apply Readable.object
  · intro f hf
    obtain ⟨m, -, rfl⟩ := List.mem_map.mp hf
    exact ⟨m.name, rfl⟩
  · rw [List.map_map]
    have hkeys : (Prod.fst ∘ fun m : Member ρ => m.write r) =
        JsonString.text ∘ fun m => m.name := rfl
    rw [hkeys, ← List.map_map]
    exact hnodup.map fun a b h => JsonString.text.inj h
  · intro f hf
    obtain ⟨m, hm, rfl⟩ := List.mem_map.mp hf
    exact (hkeeps m hm).readable

end Member

theorem Codec.record_keeps {ρ : Type} {depth : ℕ} {ms : List (Member ρ)} {start r : ρ}
    (hnodup : (ms.map (·.name)).Nodup) (hkeeps : ∀ m ∈ ms, m.Keeps depth r)
    (hall : ms.foldl (fun q m => m.copy r q) start = r) :
    (Codec.record ms start).Keeps (depth + 1) r := by
  refine ⟨Member.writeAll_readable hnodup hkeeps, ?_⟩
  exact (Member.readAll_writeAll hnodup hkeeps start).trans (congrArg _ hall)

end Schema

end JavaProfile
