import JavaProfile.Text.Split

/-!
Control sequences of terminals, such as those that set colours: an escape, a bracket, parameters,
intermediate characters and a final one. A text without escapes has none.
-/

namespace JavaProfile.Text.ControlSequence

def escape : Char := '\x1b'

/-- Digits and the marks from `:` to `?`. -/
def isParameter (c : Char) : Bool :=
  0x30 ≤ c.toNat && c.toNat ≤ 0x3F

/-- The space and the marks from `!` to `/`. -/
def isIntermediate (c : Char) : Bool :=
  0x20 ≤ c.toNat && c.toNat ≤ 0x2F

/-- Letters and the marks beside them. -/
def isFinal (c : Char) : Bool :=
  0x40 ≤ c.toNat && c.toNat ≤ 0x7E

/-- What stands behind a sequence whose escape has been read. -/
def after? : List Char → Option (List Char)
  | '[' :: cs =>
    match (cs.dropWhile isParameter).dropWhile isIntermediate with
    | c :: rest => if isFinal c then some rest else none
    | [] => none
  | _ => none

/-- The text behind an escape, without the sequence that starts there; if none does, the escape
stays. -/
def resume (cs : List Char) : List Char :=
  (after? cs).getD (escape :: cs)

/-- The text without its sequences. As no sequence holds a second escape, the pieces between the
escapes can be taken one by one. -/
def remove (cs : List Char) : List Char :=
  match splitOn escape cs with
  | [] => []
  | first :: pieces => first ++ pieces.flatMap resume

theorem remove_of_escape_not_mem {cs : List Char} (h : escape ∉ cs) : remove cs = cs := by
  simp [remove, splitOn_free h]

end JavaProfile.Text.ControlSequence

namespace JavaProfile.Text

/-- The text as it is shown where no terminal follows its control sequences. -/
def withoutControls (s : String) : String :=
  String.ofList (ControlSequence.remove s.toList)

end JavaProfile.Text
