import JavaProfile.Json.Value
import JavaProfile.Text.Quoted

/-!
JSON texts, indented by two blanks a level. A `Style` says which characters are escaped and how
doubles are written.
-/

namespace JavaProfile.Json

structure Style where
  /-- Escape every character beyond printable ASCII. -/
  ascii : Bool
  numbers : NumberFormat

/-- The style of answers to tools and of cache descriptions. -/
def Style.answer : Style := ⟨true, .json⟩

def Style.document : Style := ⟨false, .document⟩

/-- One code unit of sixteen bits as an escape. -/
def escapeUnit (n : Nat) : List Char :=
  '\\' :: 'u' :: Text.hex 4 n

/-- A character as escapes: one unit, or the two units of a surrogate pair. -/
def escapeUnits (c : Char) : List Char :=
  let n := c.toNat
  if n < 0x10000 then escapeUnit n
  else
    let m := n - 0x10000
    escapeUnit (0xD800 + m / 0x400) ++ escapeUnit (0xDC00 + m % 0x400)

def escapeChar (ascii : Bool) (c : Char) : List Char :=
  if c = '"' then ['\\', '"']
  else if c = '\\' then ['\\', '\\']
  else if c = '\n' then ['\\', 'n']
  else if c = '\r' then ['\\', 'r']
  else if c = '\t' then ['\\', 't']
  else if c = '\x08' then ['\\', 'b']
  else if c = '\x0c' then ['\\', 'f']
  else if c.toNat < 0x20 then escapeUnit c.toNat
  else if ascii ∧ 0x7F ≤ c.toNat then escapeUnits c
  else [c]

def escapeLetter (ascii : Bool) : JsonLetter → List Char
  | .char c => escapeChar ascii c
  | .half unit => escapeUnit unit

def quote (ascii : Bool) (s : JsonString) : List Char :=
  '"' :: s.letters.flatMap (escapeLetter ascii) ++ ['"']

/-- A line break and the indentation of a level. -/
def newLine (depth : Nat) : List Char :=
  '\n' :: List.replicate (2 * depth) ' '

mutual

/-- The text of a value at some level, and `rest` behind it. -/
def render (style : Style) (depth : Nat) : Json → (rest : List Char) → List Char
  | null, rest => 'n' :: 'u' :: 'l' :: 'l' :: rest
  | bool true, rest => 't' :: 'r' :: 'u' :: 'e' :: rest
  | bool false, rest => 'f' :: 'a' :: 'l' :: 's' :: 'e' :: rest
  | number n, rest => (n.write style.numbers).toList ++ rest
  | string s, rest => quote style.ascii s ++ rest
  | array [], rest => '[' :: ']' :: rest
  | array (v :: vs), rest =>
    '[' :: newLine (depth + 1) ++ render style (depth + 1) v (renderItems style depth vs rest)
  | object [], rest => '\x7b' :: '\x7d' :: rest
  | object ((k, v) :: fs), rest =>
    '\x7b' :: newLine (depth + 1) ++ quote style.ascii k ++
      ':' :: ' ' :: render style (depth + 1) v (renderFields style depth fs rest)

/-- What follows an item of an array. -/
def renderItems (style : Style) (depth : Nat) : List Json → (rest : List Char) → List Char
  | [], rest => newLine depth ++ ']' :: rest
  | v :: vs, rest =>
    ',' :: newLine (depth + 1) ++ render style (depth + 1) v (renderItems style depth vs rest)

/-- What follows a field of an object. -/
def renderFields (style : Style) (depth : Nat) :
    List (JsonString × Json) → (rest : List Char) → List Char
  | [], rest => newLine depth ++ '\x7d' :: rest
  | (k, v) :: fs, rest =>
    ',' :: newLine (depth + 1) ++ quote style.ascii k ++
      ':' :: ' ' :: render style (depth + 1) v (renderFields style depth fs rest)

end

def write (style : Style) (v : Json) : String :=
  String.ofList (render style 0 v [])

end JavaProfile.Json
