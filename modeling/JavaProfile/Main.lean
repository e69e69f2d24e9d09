import JavaProfile.Command.Run
import JavaProfile.Tree.Change
import Std.Time.DateTime.Timestamp

/-!
The program. Its arguments are a command line, and each line of its standard input names a file or
a directory of the project. What the command changes in that tree is then done on the disk.
-/

namespace JavaProfile.Program

partial def readLines (input : IO.FS.Stream) : IO (List String) := do
  let line ← input.getLine
  if line.isEmpty then return []
  return String.ofList (line.toList.filter (· ≠ '\n')) :: (← readLines input)

/-- A tree with what a name stands for: a file, or else a directory. -/
def addName (t : DiskTree) (name : String) : IO DiskTree := do
  let path := Path.ofString name
  match ← (IO.FS.readBinFile name).toBaseIO with
  | .ok bytes => return ((t.makeDirectories path.parent).1.writeBytes path bytes.toList).1
  | .error _ => return (t.makeDirectories path).1

def readTree : IO DiskTree := do
  let here := Path.ofString (toString (← IO.currentDir))
  let start : DiskTree := { here := here.parts }
  (← readLines (← IO.getStdin)).foldlM addName (start.makeDirectories here).1

def readSettings : IO Settings := do
  let names := [Settings.sourceRootVariable, Settings.testRootVariable,
    Settings.maxAgeVariable, Settings.disableProgressVariable]
  let values ← names.mapM fun name => return (name, ← IO.getEnv name)
  return .ofVariables fun name => (values.lookup name).join

/-- Seconds since 1970. -/
def readClock : IO Float := do
  let moment ← Std.Time.Timestamp.now
  return Binary64.ofInt moment.toNanosecondsSinceUnixEpoch.val / 1000000000.0

def make : Change → IO Unit
  | .removeFile path => IO.FS.removeFile path.text
  | .removeDirectory path => IO.FS.removeDir path.text
  | .makeDirectory path => IO.FS.createDirAll path.text
  | .writeFile path bytes => IO.FS.writeBinFile path.text ⟨bytes.toArray⟩

def present (reply : Command.Reply) : IO Unit := do
  IO.print reply.stdout
  IO.eprint reply.stderr
  match reply.failure with
  | some e => IO.eprintln (e.kind ++ ": " ++ e.message)
  | none => return ()

end JavaProfile.Program

open JavaProfile Program in
def main (words : List String) : IO UInt32 := do
  let tree ← readTree
  let start : Session DiskTree :=
    { tree, clock := ← readClock, settings := ← readSettings
      terminal := ← (← IO.getStderr).isTty }
  let (reply, finish) := (Command.run words).run start
  (finish.log.filterMap (LogLine.report? Command.program)).forM fun line => IO.eprintln line
  (Change.between tree finish.tree).forM make
  present reply
  return reply.status.toUInt32
