import JavaProfile.Proofs.Json.Accepted
import JavaProfile.Tool.Timing

/-!
Answers with the time they took. The time is all that is new in such an answer, and a later time
takes its place.
-/

namespace JavaProfile

namespace Json

variable {fields : Fields} {key : JsonString} {value : Json}

theorem put_put (fields : Fields) (key : JsonString) (value later : Json) :
    put (put fields key value) key later = put fields key later := by
  induction fields with
  | nil => simp [put]
  | cons f fields ih =>
    obtain ⟨k, w⟩ := f
    by_cases hk : k = key
    · simp [put, hk]
    · simp [put, hk, ih]

theorem map_of_notMem (h : key ∉ fields.map Prod.fst) :
    (fields.map fun f => if f.1 = key then (key, value) else f) = fields := by
  have hsame : ∀ f ∈ fields, (if f.1 = key then (key, value) else f) = id f := by
    intro f hf
    apply if_neg
    rintro rfl
    exact h (List.mem_map_of_mem hf)
  rw [List.map_congr_left hsame, List.map_id]

theorem put_eq (hnodup : (fields.map Prod.fst).Nodup) :
    put fields key value =
      if key ∈ fields.map Prod.fst then
        fields.map fun f => if f.1 = key then (key, value) else f
      else fields ++ [(key, value)] := by
  split
  · next hmem =>
    induction fields with
    | nil => cases hmem
    | cons f fields ih =>
      obtain ⟨k, w⟩ := f
      rw [List.map_cons, List.nodup_cons] at hnodup
      by_cases hk : k = key
      · subst hk
        simp [put, map_of_notMem hnodup.1]
      · have hrest : key ∈ fields.map Prod.fst := by
          simpa [Ne.symm hk] using hmem
        simp [put, hk, ih hnodup.2 hrest]
  · next hnew => exact put_of_notMem value hnew

theorem readable_put {depth : ℕ} {name : String} (h : Readable (depth + 1) (object fields))
    (hvalue : Readable depth value) : Readable (depth + 1) (object (put fields name value)) := by
  cases h with
  | object hkeys hnodup hfields =>
    refine .object ?_ (nodup_keys_put hnodup _ _) ?_
    · intro f hf
      rcases mem_put hf with rfl | hf
      · exact ⟨name, rfl⟩
      · exact hkeys f hf
    · intro f hf
      rcases mem_put hf with rfl | hf
      · exact hvalue
      · exact hfields f hf

end Json

namespace Tool

open Json (Fields)

variable {answer : String} {elapsed : Number} {fields : Fields}

/-- The number is a double, or an integer that is not too long to be read again. -/
def Short (n : Number) : Prop :=
  ∀ k, n = .int k → (toString k.natAbs).toList.length ≤ Json.maxIntegerDigits

theorem readable_timing (h : Short elapsed) (depth : ℕ) :
    Json.Readable (depth + 1) (timing elapsed) := by
  refine .object (by simp) (by simp) ?_
  intro f hf
  rw [List.mem_singleton.mp hf]
  cases elapsed with
  | int k => exact .int (h k rfl)
  | double x => exact .double _

theorem injectTiming_object (h : Json.read answer = .ok (.object fields)) (elapsed : Number) :
    injectTiming answer elapsed =
      .ok (Json.write .answer (.object (Json.put fields "timing" (timing elapsed)))) := by
  rw [injectTiming, h]

theorem read_injectTiming (helapsed : Short elapsed)
    (h : Json.Readable Json.maxDepth (.object fields)) :
    Json.read (Json.write .answer (.object (Json.put fields "timing" (timing elapsed)))) =
      .ok (.object (Json.put fields "timing" (timing elapsed))) :=
  Json.read_write ⟨rfl, rfl⟩ (Json.readable_put h (readable_timing helapsed _))

theorem injectTiming_other (hother : ∀ fields, Json.read answer ≠ .ok (.object fields))
    (hlimit : ∀ r, Json.read answer = .error r → r.isMalformed = true) (elapsed : Number) :
    injectTiming answer elapsed = .ok answer := by
  rw [injectTiming]
  split
  · next fields hread => exact absurd hread (hother fields)
  · rfl
  · next r hread => rw [if_pos (hlimit r hread)]

/-- An object with the time as its field of that name, where it was if it was there. -/
def withTiming (fields : Fields) (elapsed : Number) : Fields :=
  let total : Json := .object [("total_ms", .number (elapsed.roundPlaces 1))]
  if .text "timing" ∈ fields.map Prod.fst then
    fields.map fun f => if f.1 = .text "timing" then (.text "timing", total) else f
  else fields ++ [(.text "timing", total)]

/-- The time is put into an answer that is an object, and nothing else in it changes. Only the last
time counts. An answer that is no object, and is within the limits of what is read, stays as it
is. -/
theorem injectTiming_only (helapsed : Short elapsed) (answer : String) :
    (∀ fields, Json.read answer = .ok (.object fields) → (Json.object fields).Unbroken →
      ∃ timed, injectTiming answer elapsed = .ok timed ∧
        Json.read timed = .ok (.object (withTiming fields elapsed)) ∧
        ∀ later, injectTiming timed later = injectTiming answer later) ∧
      ((∀ fields, Json.read answer ≠ .ok (.object fields)) →
        (∀ r, Json.read answer = .error r → r.isMalformed = true) →
        injectTiming answer elapsed = .ok answer) := by
  refine ⟨fun fields hread hunbroken => ?_, fun hother hlimit => ?_⟩
  · have hreadable := Json.readable_of_read hread hunbroken
    have htimed := read_injectTiming helapsed hreadable
    refine ⟨_, injectTiming_object hread elapsed, ?_, fun later => ?_⟩
    · have hnodup : (fields.map Prod.fst).Nodup := by
        cases hreadable with
        | object _ hnodup _ => exact hnodup
      rw [htimed, Json.put_eq hnodup]
      rfl
    · rw [injectTiming_object htimed, injectTiming_object hread, Json.put_put]
  · exact injectTiming_other hother hlimit elapsed

def clearedFields : Fields :=
  [("status", .string "cleared"), ("timing", .null), ("cache_dir", .string "é😀\n"),
    ("scores", .array [.int (-3), .object []])]

theorem readable_cleared : Json.Readable Json.maxDepth (.object clearedFields) := by
  refine .object ?_ (by decide) ?_
  · simp [clearedFields]
  · simp only [clearedFields, List.forall_mem_cons]
    refine ⟨.text _, .null, .text _, .array ?_, by simp⟩
    rw [List.forall_mem_cons, List.forall_mem_singleton]
    exact ⟨.int (by decide), .object (by simp) (by simp) (by simp)⟩

theorem injectTiming_only_cleared :
    let answer := Json.write .answer (.object clearedFields)
    (∃ timed, injectTiming answer (.double 12.25) = .ok timed ∧
      Json.read timed = .ok (.object (withTiming clearedFields (.double 12.25))) ∧
      ∀ later, injectTiming timed later = injectTiming answer later) ∧
      injectTiming "" (.double 12.25) = .ok "" := by
  have hshort : Short (.double 12.25) := by
    rintro k ⟨⟩
  have hread : Json.read (Json.write .answer (.object clearedFields)) =
      .ok (.object clearedFields) := Json.read_write ⟨rfl, rfl⟩ readable_cleared
  constructor
  · exact (injectTiming_only hshort _).1 _ hread readable_cleared.unbroken
  · apply (injectTiming_only hshort _).2
    · rintro fields ⟨⟩
    · rintro r ⟨⟩
      rfl

end Tool

end JavaProfile
