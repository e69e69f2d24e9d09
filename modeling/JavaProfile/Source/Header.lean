import JavaProfile.Source.Classify
import JavaProfile.Source.File
import JavaProfile.Source.Statement
import JavaProfile.Text.Line
import JavaProfile.Tree.Path

/-!
The header of a source file: everything up to its first type. Lines are read one by one, those of
comments are skipped, and reading ends with the line that declares a type.
-/

namespace JavaProfile.Source

/-- The facts of a header, before the file is classified. -/
structure Header where
  package : String := ""
  className : String := ""
  annotations : List String := []
  imports : List String := []
  superclass : String := ""
  interfaces : List String := []
  isAbstract : Bool := false
  isInterface : Bool := false
  deriving DecidableEq, Repr

namespace Header

def declare (h : Header) (d : Declaration) : Header :=
  { h with
    className := String.ofList d.name
    superclass := d.superclass
    interfaces := d.interfaces
    isAbstract := d.isAbstract
    isInterface := d.kind = .interfaceType }

/-- The header after a statement. A statement without its name leaves it as it was. -/
def add (h : Header) : Statement → Header
  | .package name => { h with package := name.getD h.package }
  | .import name => { h with imports := h.imports ++ name.toList }
  | .annotated name => { h with annotations := h.annotations ++ name.toList }
  | .declaration d => h.declare d
  | .other => h

end Header

/-- Whether a comment is open after a line has begun, when one was open before it or not. -/
def opensComment (inComment : Bool) (line : List Char) : Bool :=
  inComment || "/*".toList.isPrefixOf line

/-- A line with the end of a comment is skipped as a whole. -/
def endsComment (line : List Char) : Bool :=
  Text.occursIn "*/".toList line

def isLineComment (line : List Char) : Bool :=
  "//".toList.isPrefixOf line

/-- Reads on through lines, with what has been found and whether a comment is open. -/
def readLines (inComment : Bool) (h : Header) : List (List Char) → Header
  | [] => h
  | raw :: rest =>
    let line := Text.trim raw
    if endsComment line then readLines false h rest
    else if opensComment inComment line then readLines true h rest
    else if isLineComment line then readLines false h rest
    else
      match Statement.ofLine line with
      | .declaration d => h.declare d
      | s => readLines false (h.add s) rest

def readHeader (text : String) : Header :=
  readLines false {} (Text.lines text.toList)

end JavaProfile.Source

namespace JavaProfile

/-- A source file from its text. Files under the test root are tests whatever they declare. -/
def SourceFile.ofText (text path : String) (isTest : Bool) : SourceFile :=
  let h := Source.readHeader text
  let className := if h.className = "" then (Path.ofString path).stem else h.className
  { path
    package := h.package
    className
    category := if isTest then .test else Category.ofHeader className h.annotations h.interfaces
    annotations := h.annotations
    superclass := h.superclass
    interfaces := h.interfaces
    imports := h.imports
    isAbstract := h.isAbstract
    isInterface := h.isInterface }

end JavaProfile
