import JavaProfile.Schema.Codec
import JavaProfile.Source.File

/-!
Source files as records in documents.
-/

namespace JavaProfile

open Schema (Member Codec)

def SourceFile.members : List (Member SourceFile) :=
  [{ name := "path", codec := .text, get := (·.path), set := fun v f => { f with path := v } },
   { name := "package", codec := .text, get := (·.package),
     set := fun v f => { f with package := v } },
   { name := "class_name", codec := .text, get := (·.className),
     set := fun v f => { f with className := v } },
   { name := "file_type", codec := .label, get := (·.category),
     set := fun v f => { f with category := v } },
   { name := "annotations", codec := .sequence .text, get := (·.annotations),
     set := fun v f => { f with annotations := v } },
   { name := "extends_class", codec := .text, get := (·.superclass),
     set := fun v f => { f with superclass := v } },
   { name := "implements", codec := .sequence .text, get := (·.interfaces),
     set := fun v f => { f with interfaces := v } },
   { name := "imports", codec := .sequence .text, get := (·.imports),
     set := fun v f => { f with imports := v } },
   { name := "is_abstract", codec := .bool, get := (·.isAbstract),
     set := fun v f => { f with isAbstract := v } },
   { name := "is_interface", codec := .bool, get := (·.isInterface),
     set := fun v f => { f with isInterface := v } }]

/-- The written form of a source file; a document may leave out any part of it. -/
def SourceFile.codec : Codec SourceFile :=
  .record members { path := "", className := "A" }

end JavaProfile
