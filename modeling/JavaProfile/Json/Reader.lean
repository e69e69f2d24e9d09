import JavaProfile.Json.Letter
import JavaProfile.Json.Plain

/-!
Reading JSON texts. A reader of a part takes it off the front of a text and gives the rest. A text
must not start with a byte order mark. Lists and objects lie inside each other up to a limit.
-/

namespace JavaProfile.Json

def isSeparator (c : Char) : Bool :=
  c == ' ' || c == '\t' || c == '\n' || c == '\r'

def skip (cs : List Char) : List Char :=
  cs.dropWhile isSeparator

/-- The most lists and objects inside each other. -/
def maxDepth : Nat := 990

mutual

/-- The value at the front of a text, inside of which `depth` more lists and objects may lie inside
each other. Each call takes one unit of fuel. -/
def readValue : (fuel depth : Nat) → List Char → Except Stop (Json × List Char)
  | 0, _, cs => stop .value cs
  | _ + 1, _, [] => stop .value []
  | fuel + 1, depth, c :: cs =>
    if c = '"' then do
      let (s, rest) ← readString fuel cs
      return (string s, rest)
    else if c = '[' then
      match depth, skip cs with
      | 0, _ => stop .deepArray (c :: cs)
      | _ + 1, ']' :: rest => .ok (array [], rest)
      | depth + 1, inner => do
        let (items, rest) ← readItems fuel depth inner
        return (array items, rest)
    else if c = '\x7b' then
      match depth, skip cs with
      | 0, _ => stop .deepObject (c :: cs)
      | _ + 1, '\x7d' :: rest => .ok (object [], rest)
      | depth + 1, inner => do
        let (members, rest) ← readMembers fuel depth inner
        return (object (collect members), rest)
    else readPlain (c :: cs)

/-- Items up to the closing bracket. -/
def readItems : (fuel depth : Nat) → List Char → Except Stop (List Json × List Char)
  | 0, _, cs => stop .value cs
  | fuel + 1, depth, cs => do
    let (v, rest) ← readValue fuel depth cs
    match skip rest with
    | ']' :: rest => return ([v], rest)
    | ',' :: rest => do
      let (vs, rest) ← readItems fuel depth (skip rest)
      return (v :: vs, rest)
    | rest => stop .comma rest

/-- Members up to the closing brace, in the order written. -/
def readMembers : (fuel depth : Nat) → List Char → Except Stop (Fields × List Char)
  | 0, _, cs => stop .propertyName cs
  | fuel + 1, depth, cs =>
    match cs with
    | '"' :: rest => do
      let (key, rest) ← readString fuel rest
      match skip rest with
      | ':' :: rest => do
        let (v, rest) ← readValue fuel depth (skip rest)
        match skip rest with
        | '\x7d' :: rest => return ([(key, v)], rest)
        | ',' :: rest => do
          let (ms, rest) ← readMembers fuel depth (skip rest)
          return ((key, v) :: ms, rest)
        | rest => stop .comma rest
      | rest => stop .colon rest
    | _ => stop .propertyName cs

end

/-- The one value of a text, with nothing but separators around it. -/
def readText (cs : List Char) : Except Stop Json :=
  if cs.head? = some '\uFEFF' then stop .byteOrderMark cs
  else do
    let (v, rest) ← readValue (2 * cs.length + 1) maxDepth (skip cs)
    match skip rest with
    | [] => return v
    | extra => stop .extraData extra

def read (text : String) : Except Refusal Json :=
  match readText text.toList with
  | .ok v => .ok v
  | .error s => .error ⟨s.problem, text.toList.take (text.toList.length - s.remaining)⟩

end JavaProfile.Json
