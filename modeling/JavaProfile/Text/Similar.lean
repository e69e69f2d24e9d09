/-!
Words that look like a mistyped one. How much two words share is found by their longest common
part, the longest common parts before and after it, and so on.
-/

namespace JavaProfile.Text

def sharedStart : List Char → List Char → Nat
  | a :: as, b :: bs => if a = b then sharedStart as bs + 1 else 0
  | _, _ => 0

/-- A part that two words share: where it starts in each, and how long it is. -/
structure Shared where
  first : Nat
  second : Nat
  size : Nat
  deriving DecidableEq, Repr

/-- The longest of some parts, the first of those equally long. -/
def Shared.longest (parts : List Shared) : Shared :=
  parts.foldl (fun best p => if best.size < p.size then p else best) ⟨0, 0, 0⟩

def longestShared (a b : List Char) : Shared :=
  Shared.longest <| (List.range a.length).flatMap fun i =>
    (List.range b.length).map fun j => ⟨i, j, sharedStart (a.drop i) (b.drop j)⟩

/-- How many characters two words share, looking `depth` parts deep. -/
def sharedCount : (depth : Nat) → List Char → List Char → Nat
  | 0, _, _ => 0
  | depth + 1, a, b =>
    let p := longestShared a b
    if p.size = 0 then 0
    else
      p.size + sharedCount depth (a.take p.first) (b.take p.second) +
        sharedCount depth (a.drop (p.first + p.size)) (b.drop (p.second + p.size))

/-- Twice the shared characters, and the characters of both words. -/
def likeness (a b : List Char) : Nat × Nat :=
  (2 * sharedCount (a.length + 1) a b, a.length + b.length)

/-- Alike are words that share six in ten of their characters. -/
def isAlike (l : Nat × Nat) : Bool :=
  6 * l.2 ≤ 10 * l.1

/-- Words whose lengths differ too much are not alike, as they share no more than the shorter one
has. -/
def mayBeAlike (a b : List Char) : Bool :=
  isAlike (2 * min a.length b.length, a.length + b.length)

/-- Whether the first word is to be named before the second: it is more alike, or equally alike and
later in the alphabet. -/
def comesFirst (a b : (Nat × Nat) × String) : Bool :=
  if a.1.1 * b.1.2 = b.1.1 * a.1.2 then decide (b.2 ≤ a.2)
  else decide (b.1.1 * a.1.2 < a.1.1 * b.1.2)

/-- The words most like a given one, at most three. -/
def similar (word : String) (words : List String) : List String :=
  let candidates := words.filter fun w => mayBeAlike w.toList word.toList
  let rated := candidates.map fun w => (likeness w.toList word.toList, w)
  (((rated.filter fun r => isAlike r.1).mergeSort comesFirst).take 3).map (·.2)

end JavaProfile.Text
