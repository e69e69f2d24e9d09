import JavaProfile.Json.Writer
import JavaProfile.Text.Quoted
import JavaProfile.Text.Utf8

/-!
JSON values as messages show them: a string stands without quotes, one inside a list or an object
with them.
-/

namespace JavaProfile.Json

/-- A string with quotes. Half a surrogate pair is written as an escape. -/
def shownString : JsonString → String
  | .text s => Text.quoted s
  | .broken letters =>
    let quote := Text.quoteMark (letters.filterMap fun l => match l with
      | .char c => some c
      | .half _ => none)
    String.ofList (quote :: (letters.flatMap fun l => match l with
      | .char c => Text.quotedChar quote c
      | .half unit => escapeUnit unit) ++ [quote])

/-- A string without quotes. In the place of half a surrogate pair stands a replacement. -/
def plainString : JsonString → String
  | .text s => s
  | .broken letters => String.ofList (letters.map fun l => match l with
    | .char c => c
    | .half _ => Text.replacement)

mutual

def shown : Json → String
  | null => "None"
  | bool b => if b then "True" else "False"
  | number n => n.write .plain
  | string s => shownString s
  | array items => "[" ++ String.intercalate ", " (shownItems items) ++ "]"
  | object fields => "\x7b" ++ String.intercalate ", " (shownFields fields) ++ "\x7d"

def shownItems : List Json → List String
  | [] => []
  | v :: vs => shown v :: shownItems vs

def shownFields : List (JsonString × Json) → List String
  | [] => []
  | (k, v) :: fs => (shownString k ++ ": " ++ shown v) :: shownFields fs

end

/-- A value in the middle of a message. -/
def display : Json → String
  | string s => plainString s
  | v => shown v

def kind : Json → String
  | null => "NoneType"
  | bool _ => "bool"
  | number (.int _) => "int"
  | number (.double _) => "float"
  | string _ => "str"
  | array _ => "list"
  | object _ => "dict"

end JavaProfile.Json
