import JavaProfile.Number.Basic
import JavaProfile.Text.Quoted
import JavaProfile.Tree.Path

/-!
Trees of files and directories, as far as projects and their caches need them. Paths are passed as
they were written, since messages show them.
-/

namespace JavaProfile

inductive SystemCause where
  | noEntry
  | fileExists
  | notDirectory
  | isDirectory
  | nameTooLong
  | linkLoop
  deriving DecidableEq, Repr

namespace SystemCause

def number : SystemCause → Nat
  | noEntry => 2
  | fileExists => 17
  | notDirectory => 20
  | isDirectory => 21
  | nameTooLong => 36
  | linkLoop => 40

def message : SystemCause → String
  | noEntry => "No such file or directory"
  | fileExists => "File exists"
  | notDirectory => "Not a directory"
  | isDirectory => "Is a directory"
  | nameTooLong => "File name too long"
  | linkLoop => "Too many levels of symbolic links"

def kind : SystemCause → String
  | noEntry => "FileNotFoundError"
  | fileExists => "FileExistsError"
  | notDirectory => "NotADirectoryError"
  | isDirectory => "IsADirectoryError"
  | nameTooLong => "OSError"
  | linkLoop => "OSError"

end SystemCause

inductive TreeError where
  | noDirectory (path : String)
  | noFile (path : String)
  | isDirectory (path : String)
  | fileExists (path : String)
  | system (cause : SystemCause) (path : String)
  /-- A symbolic link that cannot be made. -/
  | link (cause : SystemCause) (target path : String)
  /-- A file where a directory was to be removed. -/
  | removedFile (path : String)
  /-- A symbolic link where a directory was to be removed. -/
  | removedLink
  | denied (path : String)
  /-- The first byte of a file begins no character. -/
  | undecodable
  /-- A path with the character that ends texts for the system. -/
  | nulInPath
  deriving DecidableEq, Repr

namespace TreeError

def systemMessage (cause : SystemCause) (shownPath : String) : String :=
  "[Errno " ++ toString cause.number ++ "] " ++ cause.message ++ ": " ++ shownPath

def message : TreeError → String
  | noDirectory p => "No such directory: " ++ p
  | noFile p => "No such file: " ++ p
  | isDirectory p => "Is a directory: " ++ p
  | fileExists p => "File exists: " ++ p
  | system cause p => systemMessage cause (Text.quoted p)
  | link cause target p => systemMessage cause (Text.quoted target ++ " -> " ++ Text.quoted p)
  | removedFile p => systemMessage .notDirectory ("PosixPath(" ++ Text.quoted p ++ ")")
  | removedLink => "Cannot call rmtree on a symbolic link"
  | denied p => "denied: " ++ p
  | undecodable => "'utf-8' codec can't decode byte 0xff in position 0: invalid start byte"
  | nulInPath => "embedded null byte"

def kind : TreeError → String
  | noDirectory _ => "FileNotFoundError"
  | noFile _ => "FileNotFoundError"
  | isDirectory _ => "IsADirectoryError"
  | fileExists _ => "FileExistsError"
  | system cause _ => cause.kind
  | link cause _ _ => cause.kind
  | removedFile _ => "NotADirectoryError"
  | removedLink => "OSError"
  | denied _ => "PermissionError"
  | undecodable => "UnicodeDecodeError"
  | nulInPath => "ValueError"

/-- Whether the tree failed, and not the reading of what it holds or of a path. -/
def isSystem : TreeError → Bool
  | undecodable => false
  | nulInPath => false
  | _ => true

end TreeError

structure FileEntry where
  path : Path
  /-- Its size in bytes. -/
  size : Nat
  /-- When it was written, in seconds since 1970. -/
  modified : Number

class FileTree (τ : Type) where
  isDirectory : τ → String → Except TreeError Bool
  contains : τ → String → Except TreeError Bool
  walk : τ → String → Except TreeError (List FileEntry)
  read : τ → String → Except TreeError String
  /-- The tree with a file written at a time of the clock. -/
  write : τ → (now : Float) → (path data : String) → τ × Except TreeError Unit
  /-- The tree with a directory and all those around it. -/
  makeDirectories : τ → String → τ × Except TreeError Unit
  removeTree : τ → String → τ × Except TreeError Unit
  /-- The directory that writing a file makes when it is missing. -/
  impliedDirectory : τ → String → Option String := fun _ _ => none
  /-- An absolute path with all links followed. -/
  realPath : τ → String → Except TreeError Path := fun _ p => .ok (Path.ofString p).absolute

end JavaProfile
