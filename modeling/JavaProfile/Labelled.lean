/-!
Finite kinds whose members are written by fixed labels.
-/

namespace JavaProfile

class Labelled (α : Type) where
  all : List α
  label : α → String

export Labelled (label)

def ofLabel? {α : Type} [Labelled α] (s : String) : Option α :=
  (Labelled.all : List α).find? fun a => label a == s

theorem label_of_ofLabel? {α : Type} [Labelled α] {s : String} {a : α}
    (h : ofLabel? s = some a) : label a = s := by
  have := List.find?_some h
  simpa using this

end JavaProfile
