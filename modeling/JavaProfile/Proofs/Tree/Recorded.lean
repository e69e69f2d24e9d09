import JavaProfile.Proofs.Tree.Lawful

/-!
Trees that record what is written to them. A program on such a tree does what it does on the tree
alone, and every file that it writes is known.
-/

namespace JavaProfile

structure WriteRecord where
  path : String
  data : String
  result : Except TreeError Unit

structure Recorded (τ : Type) where
  tree : τ
  /-- What was written, in this order. -/
  writes : List WriteRecord := []

namespace Recorded

variable {τ : Type} [FileTree τ]

def write (r : Recorded τ) (now : Float) (path data : String) :
    Recorded τ × Except TreeError Unit :=
  let (tree, result) := FileTree.write r.tree now path data
  (⟨tree, r.writes ++ [⟨path, data, result⟩]⟩, result)

instance : FileTree (Recorded τ) where
  isDirectory r := FileTree.isDirectory r.tree
  contains r := FileTree.contains r.tree
  walk r := FileTree.walk r.tree
  read r := FileTree.read r.tree
  write := write
  makeDirectories r path :=
    ({ r with tree := (FileTree.makeDirectories r.tree path).1 },
      (FileTree.makeDirectories r.tree path).2)
  removeTree r path :=
    ({ r with tree := (FileTree.removeTree r.tree path).1 },
      (FileTree.removeTree r.tree path).2)
  impliedDirectory r := FileTree.impliedDirectory r.tree
  realPath r := FileTree.realPath r.tree

theorem write_tree (r : Recorded τ) (now : Float) (path data : String) :
    (FileTree.write r now path data).1.tree = (FileTree.write r.tree now path data).1 :=
  rfl

theorem write_result (r : Recorded τ) (now : Float) (path data : String) :
    (FileTree.write r now path data).2 = (FileTree.write r.tree now path data).2 :=
  rfl

theorem write_writes (r : Recorded τ) (now : Float) (path data : String) :
    (FileTree.write r now path data).1.writes =
      r.writes ++ [⟨path, data, (FileTree.write r.tree now path data).2⟩] :=
  rfl

instance [LawfulTree τ] : LawfulTree (Recorded τ) where
  Place := LawfulTree.Place τ
  place? r := LawfulTree.place? r.tree
  place?_of_read {r p data} h := by
    change FileTree.read r.tree p = .ok data at h
    exact LawfulTree.place?_of_read h
  contains_of_read {r p data} h := by
    change FileTree.read r.tree p = .ok data at h
    change FileTree.contains r.tree p = .ok true
    exact LawfulTree.contains_of_read h
  read_write {r r' now p data} hdata h := by
    have htree : (FileTree.write r.tree now p data).1 = r'.tree := congrArg (·.1.tree) h
    have hresult : (FileTree.write r.tree now p data).2 = .ok () := congrArg (·.2) h
    have hwrite : FileTree.write r.tree now p data = (r'.tree, .ok ()) := Prod.ext htree hresult
    change FileTree.read r'.tree p = .ok data
    exact LawfulTree.read_write hdata hwrite
  read_write_apart {r p q data} h hapart now new := by
    change FileTree.read r.tree q = .ok data at h
    change FileTree.read (FileTree.write r.tree now p new).1 q = .ok data
    exact LawfulTree.read_write_apart h hapart now new
  place?_write {r q l} h now p new := by
    change LawfulTree.place? (FileTree.write r.tree now p new).1 q = some l
    exact LawfulTree.place?_write h now p new
  read_makeDirectories {r q data} h p := by
    change FileTree.read r.tree q = .ok data at h
    change FileTree.read (FileTree.makeDirectories r.tree p).1 q = .ok data
    exact LawfulTree.read_makeDirectories h p
  place?_makeDirectories {r q l} h p := by
    change LawfulTree.place? (FileTree.makeDirectories r.tree p).1 q = some l
    exact LawfulTree.place?_makeDirectories h p

variable [LawfulTree τ]

/-- Paths lead where they led before, and no record is lost. -/
structure Grows (r r' : Recorded τ) : Prop where
  place {q : String} {l : LawfulTree.Place τ} :
    LawfulTree.place? r.tree q = some l → LawfulTree.place? r'.tree q = some l
  writes {w : WriteRecord} : w ∈ r.writes → w ∈ r'.writes

theorem Grows.refl (r : Recorded τ) : r.Grows r :=
  ⟨id, id⟩

theorem Grows.trans {r r' r'' : Recorded τ} (h : r.Grows r') (h' : r'.Grows r'') : r.Grows r'' :=
  ⟨fun hplace => h'.place (h.place hplace), fun hw => h'.writes (h.writes hw)⟩

theorem Grows.write (r : Recorded τ) (now : Float) (path data : String) :
    r.Grows (FileTree.write r now path data).1 where
  place h := LawfulTree.place?_write h now path data
  writes h := List.mem_append_left _ h

theorem Grows.makeDirectories (r : Recorded τ) (path : String) :
    r.Grows (FileTree.makeDirectories r path).1 where
  place h := LawfulTree.place?_makeDirectories h path
  writes h := h

omit [LawfulTree τ]

/-- All records behind some earlier ones are as a property says. -/
def WrittenSince (base : List WriteRecord) (P : WriteRecord → Prop) (r : Recorded τ) : Prop :=
  ∃ new, r.writes = base ++ new ∧ ∀ w ∈ new, P w

theorem WrittenSince.write {base : List WriteRecord} {P : WriteRecord → Prop} {r : Recorded τ}
    {now : Float} {path data : String} (h : r.WrittenSince base P)
    (hlast : P ⟨path, data, (FileTree.write r.tree now path data).2⟩) :
    (FileTree.write r now path data).1.WrittenSince base P := by
  obtain ⟨new, hnew, hwritten⟩ := h
  refine ⟨new ++ [⟨path, data, (FileTree.write r.tree now path data).2⟩], ?_, ?_⟩
  · rw [write_writes, hnew, List.append_assoc]
  · intro w hw
    rcases List.mem_append.mp hw with hw | hw
    · exact hwritten w hw
    · obtain rfl := List.mem_singleton.mp hw
      exact hlast

/-- Every write has succeeded. -/
def AllWritten (r : Recorded τ) : Prop :=
  ∀ w ∈ r.writes, w.result = .ok ()

end Recorded

end JavaProfile
