import JavaProfile.Number.Basic

/-!
JSON values. Integers keep every digit, and an object keeps its keys in the order they first
appeared; a key written again changes the value where it stands. Strings may hold what no text
holds, half a surrogate pair.
-/

namespace JavaProfile

inductive JsonLetter where
  | char (c : Char)
  /-- A code unit of a surrogate pair whose other one is missing. -/
  | half (unit : Nat)
  deriving DecidableEq, Repr

inductive JsonString where
  | text (s : String)
  /-- A string with halves of surrogate pairs. -/
  | broken (letters : List JsonLetter)
  deriving DecidableEq, Repr, Inhabited

namespace JsonString

instance : Coe String JsonString := ⟨text⟩

def ofLetters (letters : List JsonLetter) : JsonString :=
  let char? : JsonLetter → Option Char
    | .char c => some c
    | .half _ => none
  match letters.mapM char? with
  | some cs => text (String.ofList cs)
  | none => broken letters

def letters : JsonString → List JsonLetter
  | text s => s.toList.map .char
  | broken ls => ls

end JsonString

inductive Json where
  | null
  | bool (b : Bool)
  | number (n : Number)
  | string (s : JsonString)
  | array (items : List Json)
  | object (fields : List (JsonString × Json))
  deriving Inhabited

namespace Json

abbrev Fields := List (JsonString × Json)

/-- Fields with one more: in its old place if the key was there, at the end if it was not. -/
def put (fields : Fields) (key : JsonString) (value : Json) : Fields :=
  match fields with
  | [] => [(key, value)]
  | (k, v) :: rest => if k = key then (key, value) :: rest else (k, v) :: put rest key value

/-- The fields that a sequence of members leaves. -/
def collect (members : Fields) : Fields :=
  members.foldl (fun fields m => put fields m.1 m.2) []

def field? (fields : Fields) (key : JsonString) : Option Json :=
  fields.lookup key

/-- Whether a value counts as set: not null, false, zero or empty. -/
def isSet : Json → Bool
  | null => false
  | bool b => b
  | number n => !n.isZero
  | string s => s ≠ .text ""
  | array items => !items.isEmpty
  | object fields => !fields.isEmpty

def int (n : Int) : Json := number (.int n)

def double (x : Float) : Json := number (.double x)

def strings (items : List String) : Json := array (items.map (string ∘ JsonString.text))

theorem field?_put_self (fields : Fields) (key : JsonString) (value : Json) :
    field? (put fields key value) key = some value := by
  induction fields with
  | nil => simp [put, field?]
  | cons f fields ih =>
    obtain ⟨k, v⟩ := f
    rw [put]
    split
    · simp [field?]
    · next h =>
      have : (key == k) = false := by simpa [beq_eq_false_iff_ne] using Ne.symm h
      simpa [field?, List.lookup_cons, this] using ih

theorem field?_put_other (fields : Fields) {key other : JsonString} (value : Json)
    (ne : other ≠ key) : field? (put fields key value) other = field? fields other := by
  induction fields with
  | nil => simp [put, field?, List.lookup_cons, beq_eq_false_iff_ne.2 ne]
  | cons f fields ih =>
    obtain ⟨k, v⟩ := f
    rw [put]
    split
    · next h => simp [field?, List.lookup_cons, h, beq_eq_false_iff_ne.2 ne]
    · simp only [field?, List.lookup_cons] at ih ⊢
      rw [ih]

end Json

end JavaProfile
