import JavaProfile.Source.TypeList
import JavaProfile.Text.Search

/-!
What one line of a source file declares. Only the beginning of a line is read, save for the
declaration of a type, which may stand after modifiers.
-/

namespace JavaProfile.Source

inductive TypeKind where
  | classType
  | interfaceType
  | enumType
  | recordType
  deriving DecidableEq, Repr

def TypeKind.all : List TypeKind :=
  [.classType, .interfaceType, .enumType, .recordType]

def TypeKind.keyword : TypeKind → List Char
  | classType => ['c', 'l', 'a', 's', 's']
  | interfaceType => ['i', 'n', 't', 'e', 'r', 'f', 'a', 'c', 'e']
  | enumType => ['e', 'n', 'u', 'm']
  | recordType => ['r', 'e', 'c', 'o', 'r', 'd']

/-- A type with the text of its line before its keyword and after its name. -/
structure Declaration where
  modifiers : List Char
  kind : TypeKind
  name : List Char
  header : List Char
  deriving DecidableEq, Repr

/-- What a line declares; a name is missing where the line starts like the statement but is none. -/
inductive Statement where
  | package (name : Option String)
  | import (name : Option String)
  | annotated (name : Option String)
  | declaration (d : Declaration)
  | other
  deriving DecidableEq, Repr

/-! ### Words at the front of a text -/

def afterPrefix? (word cs : List Char) : Option (List Char) :=
  if word.isPrefixOf cs then some (cs.drop word.length) else none

def afterBlanks? (cs : List Char) : Option (List Char) :=
  if cs.head?.any Text.isBlank then some (cs.dropWhile Text.isBlank) else none

def afterKeyword? (word cs : List Char) : Option (List Char) :=
  (afterPrefix? word cs).bind afterBlanks?

def isNameChar (c : Char) : Bool :=
  Text.isWord c || c == '.'

/-- A dotted name of at least one character, and the rest. -/
def dottedName? (cs : List Char) : Option (List Char × List Char) :=
  let name := cs.takeWhile isNameChar
  if name = [] then none else some (name, cs.dropWhile isNameChar)

/-- Whether a statement is closed here, perhaps after blanks. -/
def isClosed (cs : List Char) : Bool :=
  (cs.dropWhile Text.isBlank).head? == some ';'

/-! ### Packages, imports and annotations -/

def packageName? (line : List Char) : Option String := do
  let rest ← afterKeyword? "package".toList line
  let (name, rest) ← dottedName? rest
  if isClosed rest then some (String.ofList name) else none

/-- The name of an import, which may end with `.*`. -/
def importTarget? (cs : List Char) : Option String := do
  let (name, rest) ← dottedName? cs
  match rest with
  | '*' :: rest =>
    if name.getLast? = some '.' ∧ name.length ≥ 2 ∧ isClosed rest then
      some (String.ofList (name ++ ['*']))
    else none
  | rest => if isClosed rest then some (String.ofList name) else none

/-- The word `static` is part of the statement unless it must be the name itself. -/
def importName? (line : List Char) : Option String := do
  let rest ← afterKeyword? "import".toList line
  match (afterKeyword? "static".toList rest).bind importTarget? with
  | some name => some name
  | none => importTarget? rest

/-- The last segment of the name after an at sign. -/
def annotationName? (line : List Char) : Option String := do
  let rest ← afterPrefix? ['@'] line
  let (name, _) ← dottedName? rest
  return String.ofList (Text.afterLast '.' name)

/-! ### Types -/

def isIdentifierStart (c : Char) : Bool :=
  c.isAlpha || c == '_' || c == '$'

def isIdentifierChar (c : Char) : Bool :=
  Text.isWord c || c == '$'

def identifier? : List Char → Option (List Char × List Char)
  | [] => none
  | c :: cs =>
    if isIdentifierStart c then
      some (c :: cs.takeWhile isIdentifierChar, cs.dropWhile isIdentifierChar)
    else none

/-- A declaration that starts with its keyword. -/
def declarationAt? (cs : List Char) : Option Declaration :=
  TypeKind.all.findSome? fun kind => do
    let rest ← afterKeyword? kind.keyword cs
    let (name, header) ← identifier? rest
    return ⟨[], kind, name, header⟩

def Declaration.precededBy (c : Char) (d : Declaration) : Declaration :=
  { d with modifiers := c :: d.modifiers }

/-- The first declaration whose keyword is not the end of a longer word. `inWord` tells whether a
character of a word comes before the text. -/
def findDeclaration? (inWord : Bool) : List Char → Option Declaration
  | [] => none
  | c :: cs =>
    match if inWord then none else declarationAt? (c :: cs) with
    | some d => some d
    | none => (findDeclaration? (Text.isWord c) cs).map (Declaration.precededBy c)

/-- The result of `read` after the first word `keyword` for which it has one. -/
def findClause? {α : Type} (keyword : List Char) (read : List Char → Option α) (inWord : Bool) :
    List Char → Option α
  | [] => none
  | c :: cs =>
    match if inWord then none else (afterPrefix? keyword (c :: cs)).bind read with
    | some a => some a
    | none => findClause? keyword read (Text.isWord c) cs

def clauseName? (cs : List Char) : Option (List Char) := do
  let rest ← afterBlanks? cs
  let (name, _) ← dottedName? rest
  return name

/-- A list of types up to an opening brace. A clause of nothing but blanks has an empty list if
there are two of them, and is no clause if there is one. -/
def clauseTypes? (cs : List Char) : Option (List String) := do
  let rest ← afterBlanks? cs
  let body := rest.takeWhile (· ≠ '\x7b')
  if body ≠ [] then some (typeNames body)
  else if 2 ≤ (cs.takeWhile Text.isBlank).length then some []
  else none

namespace Declaration

def plainHeader (d : Declaration) : List Char :=
  dropGroups d.header

def isAbstract (d : Declaration) : Bool :=
  d.kind ≠ .interfaceType && Text.occursIn "abstract ".toList d.modifiers

/-- The superclass, unless it is the one every class has. -/
def superclass (d : Declaration) : String :=
  if d.kind = .interfaceType then ""
  else
    let name := String.ofList
      ((findClause? "extends".toList clauseName? false d.plainHeader).getD [])
    if name = "Object" ∨ name = "java.lang.Object" then "" else name

def interfaces (d : Declaration) : List String :=
  let keyword := if d.kind = .interfaceType then "extends" else "implements"
  (findClause? keyword.toList clauseTypes? false d.plainHeader).getD []

end Declaration

/-- What a line without blanks around it declares. -/
def Statement.ofLine (line : List Char) : Statement :=
  if "package ".toList.isPrefixOf line then .package (packageName? line)
  else if "import ".toList.isPrefixOf line then .import (importName? line)
  else if "@".toList.isPrefixOf line then .annotated (annotationName? line)
  else
    match findDeclaration? false line with
    | some d => .declaration d
    | none => .other

end JavaProfile.Source
