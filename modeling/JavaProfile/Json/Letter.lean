import JavaProfile.Json.Refusal
import JavaProfile.Json.Value

/-!
Reading JSON strings, letter by letter. A letter is a character or an escape.
-/

namespace JavaProfile.Json

def hexValue? (c : Char) : Option Nat :=
  if '0' ≤ c ∧ c ≤ '9' then some (c.toNat - '0'.toNat)
  else if 'a' ≤ c ∧ c ≤ 'f' then some (c.toNat - 'a'.toNat + 10)
  else if 'A' ≤ c ∧ c ≤ 'F' then some (c.toNat - 'A'.toNat + 10)
  else none

/-- The code unit of four hexadecimal digits. -/
def hexUnit? : List Char → Option Nat
  | [a, b, c, d] => do
    let a ← hexValue? a
    let b ← hexValue? b
    let c ← hexValue? c
    let d ← hexValue? d
    return 4096 * a + 256 * b + 16 * c + d
  | _ => none

/-- The code unit after the letter of a Unicode escape. A character must follow its digits. -/
def readUnit (mark : Char) (after : List Char) : Except Stop (Nat × List Char) :=
  match hexUnit? (after.take 4), after.drop 4 with
  | some n, r :: rest => .ok (n, r :: rest)
  | _, _ => stop .unicodeEscape (mark :: after)

def isHighSurrogate (n : Nat) : Bool := 0xD800 ≤ n && n < 0xDC00

def isLowSurrogate (n : Nat) : Bool := 0xDC00 ≤ n && n < 0xE000

/-- The letter of a code unit that has no partner. -/
def unitLetter (n : Nat) : JsonLetter :=
  if isHighSurrogate n || isLowSurrogate n then .half n else .char (Char.ofNat n)

/-- The character of the two units of a pair. -/
def pairChar (high low : Nat) : Char :=
  Char.ofNat (0x10000 + (high - 0xD800) * 0x400 + (low - 0xDC00))

/-- The second unit of a surrogate pair, if an escape for one follows. -/
def readPartner (high : Nat) (rest : List Char) : Except Stop (JsonLetter × List Char) :=
  match rest with
  | '\\' :: 'u' :: after =>
    if (after.take 5).length < 5 then .ok (unitLetter high, rest)
    else do
      let (low, rest') ← readUnit 'u' after
      if isLowSurrogate low then return (.char (pairChar high low), rest')
      else return (unitLetter high, rest)
  | _ => .ok (unitLetter high, rest)

def escaped? (c : Char) : Option Char :=
  if c = '"' then some '"'
  else if c = '\\' then some '\\'
  else if c = '/' then some '/'
  else if c = 'b' then some '\x08'
  else if c = 'f' then some '\x0c'
  else if c = 'n' then some '\n'
  else if c = 'r' then some '\r'
  else if c = 't' then some '\t'
  else none

/-- The letter of the escape that starts with `mark` after a backslash. -/
def readEscape (mark : Char) (after : List Char) : Except Stop (JsonLetter × List Char) :=
  if mark = 'u' then do
    let (n, rest) ← readUnit mark after
    if isHighSurrogate n then readPartner n rest else return (unitLetter n, rest)
  else
    match escaped? mark with
    | some c => .ok (.char c, after)
    | none => stop .escape ('\\' :: mark :: after)

/-- The letters up to the closing quote. `start` is the text from the opening quote on. Each letter
takes one unit of fuel. -/
def readLetters (start : List Char) :
    (fuel : Nat) → List Char → Except Stop (List JsonLetter × List Char)
  | 0, _ => stop .openString start
  | _ + 1, [] => stop .openString start
  | fuel + 1, c :: cs =>
    if c = '"' then .ok ([], cs)
    else if c = '\\' then
      match cs with
      | [] => stop .openString start
      | mark :: after => do
        let (l, rest) ← readEscape mark after
        let (ls, rest) ← readLetters start fuel rest
        return (l :: ls, rest)
    else if c.toNat < 0x20 then stop .controlCharacter (c :: cs)
    else do
      let (ls, rest) ← readLetters start fuel cs
      return (.char c :: ls, rest)

/-- A string whose opening quote has been read. -/
def readString (fuel : Nat) (cs : List Char) : Except Stop (JsonString × List Char) := do
  let (letters, rest) ← readLetters ('"' :: cs) fuel cs
  return (.ofLetters letters, rest)

end JavaProfile.Json
