import JavaProfile.Settings
import JavaProfile.Time.Timestamp
import JavaProfile.Work.Outcome

/-!
Work on a tree: it may change the tree, read clocks, write to the log and fail. A failure leaves
what was changed and logged before it.
-/

namespace JavaProfile

structure Session (τ : Type) where
  tree : τ
  /-- Seconds since 1970. -/
  clock : Float
  /-- Seconds that the stopwatch moves on with each reading. -/
  tick : Float := 0.0
  readings : Nat := 0
  log : List LogLine := []
  settings : Settings := {}
  terminal : Bool := false

abbrev Work (τ α : Type) := ExceptT Failure (StateM (Session τ)) α

namespace Session

variable {τ : Type}

def now (s : Session τ) : Timestamp :=
  Timestamp.ofClock (.double s.clock)

def say (s : Session τ) (lines : List LogLine) : Session τ :=
  { s with log := s.log ++ lines }

/-- Whether scans of many files announce themselves in the log, for want of a progress bar. -/
def announces (s : Session τ) : Bool :=
  s.settings.progressDisabled || !s.terminal

end Session

namespace Work

variable {τ α : Type}

def say (level : LogLevel) (text : String) : Work τ Unit :=
  modify fun s => s.say [⟨level, text⟩]

def ofOutcome (x : Session τ → Outcome α) : Work τ α := do
  let s ← get
  set (s.say (x s).log)
  match (x s).result with
  | .ok a => return a
  | .error e => throw e

def ofExcept (x : Except Failure α) : Work τ α :=
  ExceptT.mk (pure x)

def onTree (f : τ → Except TreeError α) : Work τ α := do
  ofExcept ((f (← get).tree).mapError Failure.tree)

def attempt (w : Work τ α) : Work τ (Except Failure α) :=
  tryCatch (do return .ok (← w)) fun e => return .error e

/-- A change of the tree, with its error as a value. -/
def change (f : Session τ → τ × Except TreeError Unit) : Work τ (Except TreeError Unit) := do
  let s ← get
  set { s with tree := (f s).1 }
  return (f s).2

/-- A reading of the stopwatch in seconds. -/
def readStopwatch : Work τ Float := do
  let s ← get
  set { s with readings := s.readings + 1 }
  return Binary64.ofInt (s.readings + 1 : Nat) * s.tick

def details (items : List (String × String)) : String :=
  String.join (items.map fun (name, value) => " " ++ name ++ "=" ++ value)

/-- Work with its beginning and its end in the log, and the seconds it took. -/
def timed (level : LogLevel) (operation : String) (items : List (String × String))
    (work : Work τ α) : Work τ (α × Float) := do
  say level ("▶ Starting " ++ operation ++ details items)
  let start ← readStopwatch
  let result ← attempt work
  let stop ← readStopwatch
  let seconds := stop - start
  match result with
  | .ok a =>
    say level ("✓ Completed " ++ operation ++ " in " ++ writePlaces 2 seconds ++ "s")
    return (a, seconds)
  | .error e =>
    say .error
      ("✗ " ++ operation ++ " failed after " ++ writePlaces 2 seconds ++ "s: " ++ e.message)
    throw e

end Work

end JavaProfile
