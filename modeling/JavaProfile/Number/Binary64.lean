import JavaProfile.Number.Power
import JavaProfile.Number.Rounding

/-!
Doubles taken apart and put together exactly. A finite double is a mantissa times a power of two;
`ofRatio` finds the double nearest to a quotient, and every other conversion goes through it.
-/

namespace JavaProfile.Binary64

/-- What the bits of a double say. The number is `mantissa * 2 ^ exponent` up to its sign. -/
inductive Value where
  | finite (negative : Bool) (mantissa : Nat) (exponent : Int)
  | infinite (negative : Bool)
  | notANumber
  deriving DecidableEq, Repr

def decode (x : Float) : Value :=
  let bits := x.toBits.toNat
  let negative : Bool := bits / twoTo 63 % 2 = 1
  let field : Nat := bits / twoTo 52 % twoTo 11
  let fraction : Nat := bits % twoTo 52
  if field = 2047 then
    if fraction = 0 then .infinite negative else .notANumber
  else if field = 0 then .finite negative fraction (-1074)
  else .finite negative (twoTo 52 + fraction) ((field : Int) - 1075)

def ofMagnitudeBits (negative : Bool) (bits : Nat) : Float :=
  Float.ofBits (UInt64.ofNat (if negative then twoTo 63 + bits else bits))

def infinity (negative : Bool) : Float :=
  ofMagnitudeBits negative (2047 * twoTo 52)

def notANumber : Float :=
  ofMagnitudeBits false (2047 * twoTo 52 + twoTo 51)

/-- The exponent for which `num / den` is a mantissa of 53 bits, or the least one there is. -/
def exponentOf (num den : Nat) : Int :=
  let guess : Int := (num.log2 : Int) - den.log2 - 52
  let short : Bool :=
    if guess ≥ 0 then num < den * twoTo (guess.toNat + 52)
    else num * twoTo (-guess).toNat < den * twoTo 52
  max (if short then guess - 1 else guess) (-1074)

/-- The double nearest to `± num / den`; halfway between two, the one with an even mantissa. -/
def ofRatio (negative : Bool) (num den : Nat) : Float :=
  if num = 0 then ofMagnitudeBits negative 0
  else
    let e := exponentOf num den
    let mantissa :=
      if e ≥ 0 then roundQuotient num (den * twoTo e.toNat)
      else roundQuotient (num * twoTo (-e).toNat) den
    if mantissa < twoTo 52 then ofMagnitudeBits negative mantissa
    else
      let bits := (e + 1075).toNat * twoTo 52 + (mantissa - twoTo 52)
      ofMagnitudeBits negative (min bits (2047 * twoTo 52))

def ofInt (n : Int) : Float :=
  ofRatio (n < 0) n.natAbs 1

/-- `mantissa * 2 ^ exponent` as a quotient of natural numbers. -/
def ratio (mantissa : Nat) (exponent : Int) : Nat × Nat :=
  if exponent ≥ 0 then (mantissa * twoTo exponent.toNat, 1)
  else (mantissa, twoTo (-exponent).toNat)

def signed (negative : Bool) (n : Nat) : Int :=
  if negative then -n else n

/-- The double rounded to `places` decimal places, a half going to the even neighbour. -/
def roundPlaces (places : Nat) (x : Float) : Float :=
  match decode x with
  | .finite negative m e =>
    let (num, den) := ratio m e
    ofRatio negative (roundQuotient (num * tenTo places) den) (tenTo places)
  | _ => x

end JavaProfile.Binary64
