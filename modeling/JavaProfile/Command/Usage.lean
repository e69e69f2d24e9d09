import JavaProfile.Text.Quoted

/-!
The commands of the program with their options and arguments, and what is said of a wrong use.
-/

namespace JavaProfile.Command

def program : String := "stackprint"

inductive Name where
  | detect
  | cacheInfo
  | cacheClear
  | lock
  | unlock
  | serve
  deriving DecidableEq, Repr

/-- What an option or argument belongs to. -/
inductive Context where
  | program
  | cacheGroup
  | command (name : Name)
  deriving DecidableEq, Repr

namespace Context

def words : Context → List String
  | program => []
  | cacheGroup => ["cache"]
  | command .detect => ["detect"]
  | command .cacheInfo => ["cache", "info"]
  | command .cacheClear => ["cache", "clear"]
  | command .lock => ["lock"]
  | command .unlock => ["unlock"]
  | command .serve => ["serve"]

def commandLine (c : Context) : String :=
  String.intercalate " " (Command.program :: c.words)

/-- What is written behind it on the command line. -/
def takes : Context → String
  | program => " [OPTIONS] COMMAND [ARGS]..."
  | cacheGroup => " [OPTIONS] COMMAND [ARGS]..."
  | command .detect => " [OPTIONS] PROJECT_PATH"
  | command .cacheInfo => " [OPTIONS] PROJECT_PATH"
  | command .cacheClear => " [OPTIONS] PROJECT_PATH"
  | command .lock => " [OPTIONS] PROJECT_PATH FIELDS..."
  | command .unlock => " [OPTIONS] PROJECT_PATH FIELDS..."
  | command .serve => " [OPTIONS]"

/-- Whether it takes names of fields after the path of a project. -/
def takesFields : Context → Bool
  | command .lock => true
  | command .unlock => true
  | _ => false

def helpOption : String := "--help"

def versionOption : String := "--version"

/-- The options, none of which takes a value. -/
def options : Context → List String
  | program => [versionOption, helpOption]
  | command .detect => ["--refresh", "--no-cache", "--json", helpOption]
  | _ => [helpOption]

/-- What the next word leads to. -/
def next : Context → List (String × Context)
  | program =>
    [("cache", cacheGroup), ("detect", command .detect), ("lock", command .lock),
     ("serve", command .serve), ("unlock", command .unlock)]
  | cacheGroup => [("clear", command .cacheClear), ("info", command .cacheInfo)]
  | command _ => []

def usageLine (c : Context) : String :=
  "Usage: " ++ c.commandLine ++ c.takes ++ "\n"

end Context

inductive Misuse where
  | noSuchOption (name : String) (similar : List String)
  | valueGiven (option : String)
  | noSuchCommand (name : String) (similar : List String)
  | missingCommand
  | missingPath
  | missingFields
  | pathNotFound (path : String)
  | pathIsFile (path : String)
  | unknownField (name : String)
  | extraArguments (arguments : List String)
  deriving DecidableEq, Repr

structure UsageError where
  context : Context
  misuse : Misuse
  deriving DecidableEq, Repr

def suggestion (names : List String) : String :=
  match names with
  | [] => ""
  | [name] => " Did you mean " ++ Text.quoted name ++ "?"
  | names =>
    let sorted := names.mergeSort fun a b => decide (a ≤ b)
    " (Did you mean one of: " ++ String.intercalate ", " (sorted.map Text.quoted) ++ "?)"

def Misuse.message : Misuse → String
  | noSuchOption name similar => "No such option " ++ Text.quoted name ++ "." ++ suggestion similar
  | valueGiven option => "Option " ++ Text.quoted option ++ " does not take a value."
  | noSuchCommand name similar =>
    "No such command " ++ Text.quoted name ++ "." ++ suggestion similar
  | missingCommand => "Missing command."
  | missingPath => "Missing argument 'PROJECT_PATH'."
  | missingFields => "Missing argument 'FIELDS...'."
  | pathNotFound path =>
    "Invalid value for 'PROJECT_PATH': Directory " ++ Text.quoted path ++ " does not exist."
  | pathIsFile path =>
    "Invalid value for 'PROJECT_PATH': Directory " ++ Text.quoted path ++ " is a file."
  | unknownField name => "Invalid value for FIELDS: Unknown field: " ++ name
  | extraArguments arguments =>
    "Got unexpected extra argument" ++ (if arguments.length = 1 then "" else "s") ++ " (" ++
      String.intercalate " " arguments ++ ")"

/-- Whether the message comes with a reminder of the usage. -/
def Misuse.showsUsage : Misuse → Bool
  | valueGiven _ => false
  | _ => true

def UsageError.reminder (e : UsageError) : String :=
  e.context.usageLine ++ "Try '" ++ e.context.commandLine ++ " " ++ Context.helpOption ++
    "' for help.\n\n"

def UsageError.text (e : UsageError) : String :=
  (if e.misuse.showsUsage then e.reminder else "") ++ "Error: " ++ e.misuse.message ++ "\n"

end JavaProfile.Command
