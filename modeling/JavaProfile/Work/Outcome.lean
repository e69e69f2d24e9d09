import JavaProfile.Work.Failure
import JavaProfile.Work.Log

/-!
Results of work that only reads: what it logs, and its value or why it has failed. What was logged
before a failure stays logged.
-/

namespace JavaProfile

structure Outcome (α : Type) where
  log : List LogLine
  result : Except Failure α

namespace Outcome

variable {α β : Type}

def ok (a : α) : Outcome α := ⟨[], .ok a⟩

def fail (e : Failure) : Outcome α := ⟨[], .error e⟩

def bind (x : Outcome α) (f : α → Outcome β) : Outcome β :=
  match x.result with
  | .ok a => ⟨x.log ++ (f a).log, (f a).result⟩
  | .error e => ⟨x.log, .error e⟩

instance : Monad Outcome where
  pure := ok
  bind := bind

def say (level : LogLevel) (text : String) : Outcome Unit :=
  ⟨[⟨level, text⟩], .ok ()⟩

def ofExcept {ε : Type} (failure : ε → Failure) : Except ε α → Outcome α
  | .ok a => ok a
  | .error e => fail (failure e)

/-- The outcome with its failure as a value. -/
def attempt (x : Outcome α) : Outcome (Except Failure α) :=
  ⟨x.log, .ok x.result⟩

end Outcome

end JavaProfile
