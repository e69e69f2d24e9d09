import JavaProfile.Number.Shortest

/-!
Written forms of a double. Every form has the shortest digits that read back; a `NumberFormat` says
when they stand in positional notation and how an exponent is written.
-/

namespace JavaProfile

/-- The choices a written form makes beyond its digits. The decimal point stands after the first
`point` digits; positional notation is used from `leastPoint` to `greatestPoint`. -/
structure NumberFormat where
  leastPoint : Int
  greatestPoint : Int
  exponentWidth : Nat
  exponentPlus : Bool
  notANumber : String
  infinity : String

/-- Texts for people and for programs: positional from 0.0001 to below 10^16, exponents of two
digits at least. -/
def NumberFormat.plain : NumberFormat where
  leastPoint := -3
  greatestPoint := 16
  exponentWidth := 2
  exponentPlus := true
  notANumber := "nan"
  infinity := "inf"

/-- As `plain`, with the names JSON texts use for what is not finite. -/
def NumberFormat.json : NumberFormat :=
  { NumberFormat.plain with notANumber := "NaN", infinity := "Infinity" }

/-- Profile documents: positional from 0.00001 to below 10^16, bare exponents. -/
def NumberFormat.document : NumberFormat where
  leastPoint := -4
  greatestPoint := 16
  exponentWidth := 1
  exponentPlus := false
  notANumber := "NaN"
  infinity := "Infinity"

namespace NumberFormat

def zeros (n : Int) : List Char :=
  List.replicate n.toNat '0'

/-- Digits with a decimal point after the first `point` of them. -/
def positional (digits : List Char) (point : Int) : List Char :=
  if point ≤ 0 then '0' :: '.' :: zeros (-point) ++ digits
  else if digits.length ≤ point.toNat then digits ++ zeros (point - digits.length) ++ ['.', '0']
  else digits.take point.toNat ++ '.' :: digits.drop point.toNat

def exponentText (f : NumberFormat) (e : Int) : List Char :=
  let magnitude := (toString e.natAbs).toList
  let sign := if e < 0 then ['-'] else if f.exponentPlus then ['+'] else []
  'e' :: sign ++ zeros (f.exponentWidth - magnitude.length) ++ magnitude

def scientific (f : NumberFormat) (digits : List Char) (point : Int) : List Char :=
  let mantissa := match digits with
    | [] => []
    | [d] => [d]
    | d :: ds => d :: '.' :: ds
  mantissa ++ f.exponentText (point - 1)

def magnitudeText (f : NumberFormat) (mantissa : Nat) (exponent : Int) : List Char :=
  let (n, e) := Shortest.decimal mantissa exponent
  let digits := (toString n).toList
  let point : Int := digits.length + e
  if n = 0 then ['0', '.', '0']
  else if f.leastPoint ≤ point ∧ point ≤ f.greatestPoint then positional digits point
  else f.scientific digits point

def write (f : NumberFormat) (x : Float) : String :=
  match Binary64.decode x with
  | .notANumber => f.notANumber
  | .infinite negative => (if negative then "-" else "") ++ f.infinity
  | .finite negative m e =>
    (if negative then "-" else "") ++ String.ofList (f.magnitudeText m e)

end NumberFormat

/-- A double with a fixed number of decimal places, a half going to the even neighbour. -/
def writePlaces (places : Nat) (x : Float) : String :=
  match Binary64.decode x with
  | .notANumber => "nan"
  | .infinite negative => if negative then "-inf" else "inf"
  | .finite negative m e =>
    let (num, den) := Binary64.ratio m e
    let digits := (toString (roundQuotient (num * tenTo places) den)).toList
    let padded := List.replicate (places + 1 - digits.length) '0' ++ digits
    let whole := padded.take (padded.length - places)
    let fraction := padded.drop (padded.length - places)
    let point := if places = 0 then [] else ['.']
    (if negative then "-" else "") ++ String.ofList (whole ++ point ++ fraction)

end JavaProfile
