import JavaProfile.Source.Scan

/-!
Conventions of entities: the superclass most of them share, and the type of their keys.
-/

namespace JavaProfile

/-- A superclass with the place where it is declared, if that was scanned. -/
structure BaseClass where
  name : String
  package : String := ""
  path : String := ""
  deriving DecidableEq, Repr

def BaseClass.qualifiedName (c : BaseClass) : String :=
  if c.package = "" then c.name else c.package ++ "." ++ c.name

/-- The type of keys, and the annotation that generates them. -/
structure KeyType where
  name : String
  generation : String
  deriving DecidableEq, Repr

def uuidGeneration : String := "@GeneratedValue(strategy = GenerationType.UUID)"

def identityGeneration : String := "@GeneratedValue(strategy = GenerationType.IDENTITY)"

namespace Scan

def entities (s : Scan) : List SourceFile :=
  s.ofCategory .entity

/-- The superclasses that entities name, in the order of the files. -/
def entitySuperclasses (s : Scan) : List String :=
  (s.entities.map (·.superclass)).filter (· ≠ "")

/-- The text that occurs most often, the first of several such. -/
def mostFrequent? (names : List String) : Option String :=
  match names with
  | [] => none
  | name :: rest =>
    some (rest.foldl (fun best n => if names.count best < names.count n then n else best) name)

/-- With at most this many entities, one of them is enough to show a superclass. -/
def smallEntitySet : Nat := 3

/-- The class that entities extend, found where main files declare it. -/
def baseEntity? (s : Scan) : Option BaseClass := do
  let name ← mostFrequent? s.entitySuperclasses
  if 2 ≤ s.entitySuperclasses.count name ∨ s.entities.length ≤ smallEntitySet then
    match s.mainFiles.find? (·.className = name) with
    | some f => return ⟨name, f.package, f.path⟩
    | none => return ⟨name, "", ""⟩
  else none

/-- Entities that import a type with the ending `UUID` have such keys, others have numbers. -/
def keyType (s : Scan) : KeyType :=
  if s.entities = [] then ⟨"Long", ""⟩
  else if s.entities.any fun f => f.imports.any (Text.endsWith · "UUID") then
    ⟨"UUID", uuidGeneration⟩
  else ⟨"Long", identityGeneration⟩

end Scan

end JavaProfile
