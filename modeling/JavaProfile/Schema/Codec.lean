import JavaProfile.Schema.Scalar

/-!
Values with their written form in documents. A codec writes a value and reads it back; it may read
other forms too.
-/

namespace JavaProfile.Schema

structure Codec (α : Type) where
  write : α → Json
  read : Json → Checked α

namespace Codec

def int : Codec Int := ⟨Json.int, readInt⟩

def share : Codec Float := ⟨Json.double, readShare⟩

def bool : Codec Bool := ⟨Json.bool, readBool⟩

def text : Codec String := ⟨fun s => .string s, readText⟩

def timestamp : Codec Timestamp := ⟨fun t => .string t.write, readTimestamp⟩

def label {α : Type} [Labelled α] : Codec α := ⟨fun a => .string (Labelled.label a), readLabel⟩

/-- Reads the items of a list, the first of which has index `n`. -/
def readItems {α : Type} (c : Codec α) (n : Nat) : List Json → Checked (List α)
  | [] => .ok []
  | v :: vs =>
    (Checked.pair (Checked.beneath (.item n) (c.read v)) (readItems c (n + 1) vs)).map
      fun p => p.1 :: p.2

def list {α : Type} (c : Codec α) : Codec (List α) where
  write items := .array (items.map c.write)
  read
    | .array vs => readItems c 0 vs
    | _ => Checked.fail .notList

/-- A list whose items are settled once it is read. It is written like any other list. -/
def sequence {α : Type} (c : Codec α) : Codec (List α) where
  write items := .array (items.map c.write)
  read
    | .array vs => readItems c 0 vs
    | _ => Checked.fail .notSequence

/-- A value that may be absent, which is then written as null. -/
def option {α : Type} (c : Codec α) : Codec (Option α) where
  write
    | none => .null
    | some a => c.write a
  read
    | .null => .ok none
    | v => (c.read v).map some

end Codec

/-- A part of a record under its name in documents. -/
structure Member (ρ : Type) where
  name : String
  {Value : Type}
  codec : Codec Value
  get : ρ → Value
  set : Value → ρ → ρ
  required : Bool := false

namespace Member

variable {ρ : Type}

def copy (m : Member ρ) (source target : ρ) : ρ :=
  m.set (m.get source) target

def write (m : Member ρ) (r : ρ) : JsonString × Json :=
  (m.name, m.codec.write (m.get r))

/-- The record with a part read from a document; a part that is not there stays what it is. -/
def read (m : Member ρ) (fields : Json.Fields) (r : ρ) : Checked ρ :=
  match Json.field? fields m.name with
  | none =>
    if m.required then .error (.invalid [⟨[.field m.name], .missing⟩]) else .ok r
  | some v => Checked.beneath (.field m.name) ((m.codec.read v).map fun x => m.set x r)

def writeAll (ms : List (Member ρ)) (r : ρ) : Json :=
  .object (ms.map (·.write r))

/-- Reads all parts. What is wrong with any of them is reported in their order. -/
def readAll (fields : Json.Fields) : List (Member ρ) → ρ → Checked ρ
  | [], r => .ok r
  | m :: ms, r =>
    match m.read fields r with
    | .ok r' => readAll fields ms r'
    | .error e =>
      match readAll fields ms r with
      | .ok _ => .error e
      | .error e' => .error (e.both e')

end Member

/-- Records, read onto a record that has the parts a document may leave out. -/
def Codec.record {ρ : Type} (ms : List (Member ρ)) (start : ρ) : Codec ρ where
  write := Member.writeAll ms
  read
    | .object fields => Member.readAll fields ms start
    | _ => Checked.fail .notRecord

end JavaProfile.Schema
