import JavaProfile.Profile.Field

/-!
Locks keep fields of a profile over new detections. A lock is either the flag of a group of fields
or the name of a single field.
-/

namespace JavaProfile

inductive LockGroup where
  | architecture
  | dtoNaming
  | id
  | mapper
  | database
  deriving DecidableEq, Repr

instance : Labelled LockGroup where
  all := [.architecture, .dtoNaming, .id, .mapper, .database]
  label
    | .architecture => "arch"
    | .dtoNaming => "dto_naming"
    | .id => "id"
    | .mapper => "mapper"
    | .database => "database"

namespace LockGroup

def flag : LockGroup → Field
  | architecture => .architectureLocked
  | dtoNaming => .dtoNamingLocked
  | id => .idLocked
  | mapper => .mapperLocked
  | database => .databaseLocked

def fields : LockGroup → List Field
  | architecture => [.architecture, .confidence, .featureStyle, .featureModules]
  | dtoNaming => [.dtoNaming]
  | id => [.idType, .idGeneration]
  | mapper => [.mapper]
  | database => [.database]

def isLocked (p : Profile) : LockGroup → Bool
  | architecture => p.architectureLocked
  | dtoNaming => p.dtoNamingLocked
  | id => p.idLocked
  | mapper => p.mapperLocked
  | database => p.databaseLocked

def setLocked (locked : Bool) (p : Profile) : LockGroup → Profile
  | architecture => { p with architectureLocked := locked }
  | dtoNaming => { p with dtoNamingLocked := locked }
  | id => { p with idLocked := locked }
  | mapper => { p with mapperLocked := locked }
  | database => { p with databaseLocked := locked }

end LockGroup

namespace Profile

def isFieldLocked (p : Profile) (name : String) : Bool :=
  p.lockedFields.contains name

def lockField (p : Profile) (name : String) : Profile :=
  if p.isFieldLocked name then p else { p with lockedFields := p.lockedFields ++ [name] }

def unlockField (p : Profile) (name : String) : Profile :=
  { p with lockedFields := p.lockedFields.erase name }

/-- Whether the profile protects a field by a group, the flag of a group included. -/
def groupProtects (p : Profile) (f : Field) : Bool :=
  (Labelled.all : List LockGroup).any fun g => g.isLocked p && (f == g.flag || g.fields.contains f)

/-- Whether a field is kept over a new detection. The list of locks itself always is. -/
def keeps (p : Profile) (f : Field) : Bool :=
  f == .lockedFields || p.isFieldLocked f.name || p.groupProtects f

/-- A new profile with the fields that an earlier one keeps. -/
def carryLockedFrom (p previous : Profile) : Profile :=
  (Field.order.filter previous.keeps).foldl (fun q f => f.copy previous q) p

end Profile

inductive LockTarget where
  | group (g : LockGroup)
  | field (f : Field)
  deriving DecidableEq, Repr

namespace LockTarget

/-- What a name means: a group before a field of the same name. -/
def ofName? (name : String) : Option LockTarget :=
  match (ofLabel? name : Option LockGroup) with
  | some g => some (group g)
  | none => (Field.ofName? name).map field

def setLocked (locked : Bool) (p : Profile) : LockTarget → Profile
  | group g => g.setLocked locked p
  | field f => if locked then p.lockField f.name else p.unlockField f.name

end LockTarget

end JavaProfile
