import JavaProfile.Number.Format

/-!
Numbers that are either exact integers of any size or doubles. Integers stay exact among
themselves and become doubles when they meet one; order and equality are always exact.
-/

namespace JavaProfile

inductive Number where
  | int (n : Int)
  | double (x : Float)
  deriving Inhabited

namespace Number

inductive Fault where
  | integerTooLarge
  | quotientTooLarge
  | infiniteInteger
  | notANumberInteger
  deriving DecidableEq, Repr

def Fault.message : Fault → String
  | integerTooLarge => "int too large to convert to float"
  | quotientTooLarge => "integer division result too large for a float"
  | infiniteInteger => "cannot convert float infinity to integer"
  | notANumberInteger => "cannot convert float NaN to integer"

def isInfinite (x : Float) : Bool :=
  match Binary64.decode x with
  | .infinite _ => true
  | _ => false

def toDouble : Number → Except Fault Float
  | int n =>
    let x := Binary64.ofInt n
    if isInfinite x then .error .integerTooLarge else .ok x
  | double x => .ok x

/-- An operation by its two forms, exact and on doubles. -/
def lift (exact : Int → Int → Int) (rounded : Float → Float → Float) :
    Number → Number → Except Fault Number
  | int a, int b => .ok (int (exact a b))
  | a, b => do
    let x ← a.toDouble
    let y ← b.toDouble
    return double (rounded x y)

def add : Number → Number → Except Fault Number := lift (· + ·) (· + ·)

def sub : Number → Number → Except Fault Number := lift (· - ·) (· - ·)

def mul : Number → Number → Except Fault Number := lift (· * ·) (· * ·)

/-- The quotient as a double; that of two integers is the double nearest to the exact one. -/
def div : Number → Number → Except Fault Float
  | int a, int b =>
    let x := Binary64.ofRatio ((a < 0) != (b < 0)) a.natAbs b.natAbs
    if isInfinite x then .error .quotientTooLarge else .ok x
  | a, b => do
    let x ← a.toDouble
    let y ← b.toDouble
    return x / y

/-- Compares an integer with a double that is a number, exactly. -/
def compareInt (n : Int) : Binary64.Value → Ordering
  | .finite negative m e =>
    let (num, den) := Binary64.ratio m e
    compare (n * den) (Binary64.signed negative num)
  | .infinite negative => if negative then .gt else .lt
  | .notANumber => .eq

def isNotANumber : Number → Bool
  | int _ => false
  | double x => Binary64.decode x = .notANumber

def lt : Number → Number → Bool
  | int a, int b => a < b
  | double x, double y => x < y
  | int a, double y => !isNotANumber (double y) && compareInt a (Binary64.decode y) == .lt
  | double x, int b => !isNotANumber (double x) && compareInt b (Binary64.decode x) == .gt

def eq : Number → Number → Bool
  | int a, int b => a == b
  | double x, double y => x == y
  | int a, double y => !isNotANumber (double y) && compareInt a (Binary64.decode y) == .eq
  | double x, int b => !isNotANumber (double x) && compareInt b (Binary64.decode x) == .eq

def le (a b : Number) : Bool :=
  lt a b || eq a b

/-- The first of two numbers unless the second is smaller. -/
def min (a b : Number) : Number :=
  if lt b a then b else a

/-- The first of two numbers unless the second is greater. -/
def max (a b : Number) : Number :=
  if lt a b then b else a

/-- The number without its fraction. -/
def truncate : Number → Except Fault Int
  | int n => .ok n
  | double x =>
    match Binary64.decode x with
    | .finite negative m e =>
      let (num, den) := Binary64.ratio m e
      .ok (Binary64.signed negative (num / den))
    | .infinite _ => .error .infiniteInteger
    | .notANumber => .error .notANumberInteger

/-- The value as a quotient of integers, for numbers that are finite. -/
def ratio? : Number → Option (Int × Nat)
  | int n => some (n, 1)
  | double x =>
    match Binary64.decode x with
    | .finite negative m e =>
      let (num, den) := Binary64.ratio m e
      some (Binary64.signed negative num, den)
    | _ => none

def isZero (a : Number) : Bool :=
  eq a (int 0)

/-- Rounded to decimal places; an integer has none to lose. -/
def roundPlaces (places : Nat) : Number → Number
  | int n => int n
  | double x => double (Binary64.roundPlaces places x)

def write (f : NumberFormat) : Number → String
  | int n => toString n
  | double x => f.write x

end Number

end JavaProfile
