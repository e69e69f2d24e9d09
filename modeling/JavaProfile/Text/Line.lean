/-!
Lines of a text. A carriage return followed by a line feed is one break, and a break at the end
opens no further line.
-/

namespace JavaProfile.Text

def isLineBreak (c : Char) : Bool :=
  c == '\n' || c == '\r' || c == '\x0b' || c == '\x0c' || c == '\x1c' || c == '\x1d' ||
    c == '\x1e' || c == '\x85' || c == '\u2028' || c == '\u2029'

/-- Whether `c` is the carriage return of a break that ends with the line feed after it. -/
def opensBreak (c : Char) (after : List Char) : Bool :=
  c == '\r' && after.head? == some '\n'

/-- Puts a character in front of the first line. -/
def extendFirst (c : Char) : List (List Char) → List (List Char)
  | [] => [[c]]
  | l :: ls => (c :: l) :: ls

def lines : List Char → List (List Char)
  | [] => []
  | c :: cs =>
    if opensBreak c cs then lines cs
    else if isLineBreak c then [] :: lines cs
    else extendFirst c (lines cs)

/-- The text with each carriage return, alone or before a line feed, read as one line feed. -/
def unifyBreaks : List Char → List Char
  | [] => []
  | c :: cs =>
    if opensBreak c cs then unifyBreaks cs
    else (if c = '\r' then '\n' else c) :: unifyBreaks cs

theorem lines_of_no_break {cs : List Char} (ne : cs ≠ []) (h : ∀ c ∈ cs, isLineBreak c = false) :
    lines cs = [cs] := by
  induction cs with
  | nil => exact absurd rfl ne
  | cons c cs ih =>
    have hc := h c (by simp)
    have ho : opensBreak c cs = false := by
      simp only [isLineBreak, Bool.or_eq_false_iff] at hc
      simp [opensBreak, hc]
    cases cs with
    | nil => simp [lines, hc, ho, extendFirst]
    | cons d ds =>
      rw [lines, ho, hc, ih (by simp) fun x hx => h x (List.mem_cons_of_mem _ hx)]
      rfl

end JavaProfile.Text
