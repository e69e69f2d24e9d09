import JavaProfile.Command.Usage
import JavaProfile.Text.Search
import JavaProfile.Text.Similar

/-!
Reading a command line. Options of a command may stand anywhere among its arguments, up to a double
dash; those of the program and of a group stand before the word that leads on.
-/

namespace JavaProfile.Command

/-- The words after the name of a command, taken apart. -/
structure Words where
  options : List String := []
  arguments : List String := []
  deriving DecidableEq, Repr

structure Invocation where
  name : Name
  words : Words
  deriving DecidableEq, Repr

inductive Request where
  | run (i : Invocation)
  | version
  | help (c : Context)
  deriving DecidableEq, Repr

def isOption (word : String) : Bool :=
  Text.startsWith word "-" && 1 < word.length

/-- The name of an option, and whether a value is given with it. -/
def splitValue (word : String) : String × Bool :=
  (String.ofList (word.toList.takeWhile (· ≠ '=')), word.toList.contains '=')

/-- What is wrong with an option that is not known. Behind a single dash each letter is an option
of its own. -/
def unknownOption (c : Context) (word : String) : Misuse :=
  let name := (splitValue word).1
  if Text.startsWith word "--" then .noSuchOption name (Text.similar name c.options)
  else .noSuchOption (String.ofList (word.toList.take 2)) []

def checkOption (c : Context) (word : String) : Except UsageError String :=
  let (name, hasValue) := splitValue word
  if c.options.contains name then
    if hasValue then .error ⟨c, .valueGiven name⟩ else .ok name
  else .error ⟨c, unknownOption c word⟩

/-- Sorts words into options and arguments. Where options must come first, the first word that is
none ends them. -/
def split (c : Context) (optionsFirst : Bool) : List String → Except UsageError Words
  | [] => .ok {}
  | word :: rest =>
    if word = "--" then .ok { arguments := rest }
    else if isOption word then do
      let option ← checkOption c word
      let words ← split c optionsFirst rest
      return { words with options := option :: words.options }
    else if optionsFirst then .ok { arguments := word :: rest }
    else do
      let words ← split c optionsFirst rest
      return { words with arguments := word :: words.arguments }

/-- What an option asks for in place of the command. -/
def instead? (c : Context) (option : String) : Option Request :=
  if option = Context.versionOption then some .version
  else if option = Context.helpOption then some (.help c)
  else none

/-- A word that leads nowhere. Behind a double dash it may still look like an option, and is then
taken for one. -/
def readStray (c : Context) (word : String) (rest : List String) : Except UsageError Request := do
  let w ← split c true (word :: rest)
  match w.options.findSome? (instead? c) with
  | some r => return r
  | none => throw ⟨c, .noSuchCommand word (Text.similar word (c.next.map (·.1)))⟩

/-- Reads words from a context on, which at most `depth` words lead out of. -/
def readFrom : (depth : Nat) → Context → List String → Except UsageError Request
  | _, .command name, words => do
    let w ← split (.command name) false words
    return (w.options.findSome? (instead? (.command name))).getD (.run ⟨name, w⟩)
  | 0, c, _ => .ok (.help c)
  | depth + 1, c, words =>
    if words = [] then .ok (.help c)
    else do
      let w ← split c true words
      match w.options.findSome? (instead? c), w.arguments with
      | some r, _ => return r
      | none, [] => throw ⟨c, .missingCommand⟩
      | none, word :: rest =>
        match c.next.lookup word with
        | some c' => readFrom depth c' rest
        | none => readStray c word rest

def read (words : List String) : Except UsageError Request :=
  readFrom 2 .program words

end JavaProfile.Command
