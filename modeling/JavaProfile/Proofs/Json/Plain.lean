import JavaProfile.Json.Plain
import JavaProfile.Proofs.Number.Numeral

/-!
Numbers and words of JSON texts. What is written for a number reads back as that number, a double
with all its bits, if nothing follows that could go on with it.
-/

namespace JavaProfile.Json

open Decimal (ofDigits_toString)

/-- Nothing follows that could belong to a number. -/
def Ends (rest : List Char) : Prop :=
  ∀ c ∈ rest.head?, c.isDigit = false ∧ c ≠ '.' ∧ c ≠ 'e' ∧ c ≠ 'E'

variable {rest : List Char}

theorem takeWhile_digits {digits : List Char} (hdigits : ∀ c ∈ digits, c.isDigit)
    (hrest : ∀ c ∈ rest.head?, c.isDigit = false) :
    (digits ++ rest).takeWhile Char.isDigit = digits ∧
      (digits ++ rest).dropWhile Char.isDigit = rest := by
  rw [List.takeWhile_append_of_pos hdigits, List.dropWhile_append_of_pos hdigits]
  cases rest with
  | nil => simp
  | cons c cs => simp [hrest c rfl]

theorem splitWhole?_append {whole : List Char} (hdigits : ∀ c ∈ whole, c.isDigit)
    (hstart : whole = ['0'] ∨ ∃ c cs, whole = c :: cs ∧ c ≠ '0')
    (hrest : ∀ c ∈ rest.head?, c.isDigit = false) :
    splitWhole? (whole ++ rest) = some (whole, rest) := by
  rcases hstart with rfl | ⟨c, cs, rfl, hc⟩
  · rfl
  · obtain ⟨htake, hdrop⟩ :=
      takeWhile_digits (fun d hd => hdigits d (List.mem_cons_of_mem c hd)) hrest
    rw [List.cons_append, splitWhole?, if_neg hc, if_pos (hdigits c List.mem_cons_self), htake,
      hdrop]

theorem splitFraction_append {fraction : List Char} (hne : fraction ≠ [])
    (hdigits : ∀ c ∈ fraction, c.isDigit) (hrest : ∀ c ∈ rest.head?, c.isDigit = false) :
    splitFraction ('.' :: fraction ++ rest) = (some fraction, rest) := by
  obtain ⟨htake, hdrop⟩ := takeWhile_digits hdigits hrest
  rw [List.cons_append, splitFraction]
  simp only [htake, hdrop, if_neg hne]

theorem splitFraction_none (hrest : ∀ c ∈ rest.head?, c ≠ '.') :
    splitFraction rest = (none, rest) := by
  unfold splitFraction
  split
  · exact absurd rfl (hrest '.' rfl)
  · rfl

theorem splitExponent_append {sign digits : List Char}
    (hsign : sign = [] ∨ sign = ['-'] ∨ sign = ['+']) (hne : digits ≠ [])
    (hdigits : ∀ c ∈ digits, c.isDigit) (hrest : ∀ c ∈ rest.head?, c.isDigit = false) :
    splitExponent ('e' :: sign ++ digits ++ rest) =
      (some (Numeral.exponentValue (some (sign, digits))), rest) := by
  obtain ⟨htake, hdrop⟩ := takeWhile_digits hdigits hrest
  have hsplit : Decimal.splitSign (sign ++ (digits ++ rest)) =
      (decide (sign = ['-']), digits ++ rest) := by
    rcases hsign with rfl | rfl | rfl
    · obtain ⟨d, ds, rfl⟩ := List.exists_cons_of_ne_nil hne
      have hd := hdigits d List.mem_cons_self
      rw [List.nil_append, List.cons_append, Decimal.splitSign]
      · rfl
      · rintro cs ⟨⟩
        simp at hd
      · rintro cs ⟨⟩
        simp at hd
    · rfl
    · rfl
  rw [List.append_assoc, List.cons_append, splitExponent, if_pos (.inl rfl), hsplit]
  simp only [htake, hdrop, if_neg hne]
  rfl

theorem splitExponent_none (hrest : ∀ c ∈ rest.head?, c ≠ 'e' ∧ c ≠ 'E') :
    splitExponent rest = (none, rest) := by
  unfold splitExponent
  cases rest with
  | nil => rfl
  | cons c cs =>
    have hc := hrest c rfl
    simp [hc]

theorem splitExponent_exponentText {n : Numeral} (hn : n.WellFormed) (hrest : Ends rest) :
    splitExponent (Numeral.exponentText n.exponent ++ rest) =
      (n.exponent.map fun e => Numeral.exponentValue (some e), rest) := by
  cases hexponent : n.exponent with
  | none => exact splitExponent_none fun c hc => (hrest c hc).2.2
  | some e =>
    obtain ⟨hsign, hne, hdigits⟩ := hn.exponent_digits e.1 e.2 hexponent
    exact splitExponent_append hsign hne hdigits fun c hc => (hrest c hc).1

theorem head_exponentText (hrest : Ends rest) (exponent : Option (List Char × List Char)) :
    ∀ c ∈ (Numeral.exponentText exponent ++ rest).head?, c.isDigit = false ∧ c ≠ '.' := by
  cases exponent with
  | none => exact fun c hc => ⟨(hrest c hc).1, (hrest c hc).2.1⟩
  | some e =>
    rintro c ⟨⟩
    decide

theorem getD_exponentValue (exponent : Option (List Char × List Char)) :
    (exponent.map fun e => Numeral.exponentValue (some e)).getD 0 =
      Numeral.exponentValue exponent := by
  cases exponent <;> rfl

theorem readNumber_numeral {n : Numeral} (hn : n.WellFormed) (hrest : Ends rest)
    (start : List Char) (negative : Bool) :
    readNumber start negative (n.text ++ rest) =
      .ok (double (n.decimal negative).toFloat, rest) := by
  have hexponent := splitExponent_exponentText hn hrest
  have hhead := head_exponentText hrest n.exponent
  have hvalue := getD_exponentValue n.exponent
  obtain ⟨whole, fraction, exponent⟩ := n
  obtain ⟨hwhole, hstart, hfraction, -, hinexact⟩ := hn
  dsimp only at hwhole hstart hfraction hinexact hexponent hhead hvalue
  unfold readNumber Numeral.text
  rw [List.append_assoc, List.append_assoc]
  by_cases hf : fraction = []
  · subst hf
    obtain ⟨e, rfl⟩ : ∃ e, exponent = some e :=
      Option.isSome_iff_exists.mp (hinexact.resolve_left (absurd rfl))
    rw [if_pos rfl, List.nil_append,
      splitWhole?_append hwhole hstart fun c hc => (hhead c hc).1]
    dsimp only
    rw [splitFraction_none fun c hc => (hhead c hc).2]
    dsimp only
    rw [hexponent]
    dsimp only
    rw [if_neg (by simp), hvalue]
    rfl
  · rw [if_neg hf, splitWhole?_append hwhole hstart (by rintro c ⟨⟩; decide)]
    dsimp only
    rw [splitFraction_append hf hfraction fun c hc => (hhead c hc).1]
    dsimp only
    rw [hexponent]
    dsimp only
    rw [if_neg (by simp), hvalue]
    rfl

theorem readNumber_integer {n : ℕ} (hlength : (toString n).toList.length ≤ maxIntegerDigits)
    (hrest : Ends rest) (start : List Char) (negative : Bool) :
    readNumber start negative ((toString n).toList ++ rest) =
      .ok (int (Binary64.signed negative n), rest) := by
  have hstart : (toString n).toList = ['0'] ∨ ∃ c cs, (toString n).toList = c :: cs ∧ c ≠ '0' := by
    rcases Nat.eq_zero_or_pos n with rfl | hn
    · exact .inl rfl
    · exact .inr (digits_cons hn.ne')
  unfold readNumber
  rw [splitWhole?_append (fun c => isDigit_of_mem_digits) hstart fun c hc => (hrest c hc).1]
  dsimp only
  rw [splitFraction_none fun c hc => (hrest c hc).2.1]
  dsimp only
  rw [splitExponent_none fun c hc => (hrest c hc).2.2]
  dsimp only
  rw [if_pos (by simp), if_neg (by omega), ofDigits_toString]

/-! ### Words -/

theorem afterWord?_ne {a c : Char} {as cs : List Char} (word : String)
    (hword : word.toList = a :: as) (hne : a ≠ c) : afterWord? word (c :: cs) = none := by
  rw [afterWord?, hword, List.isPrefixOf, beq_eq_false_iff_ne.mpr hne, Bool.false_and]
  rfl

theorem digit_ne {c d : Char} (hc : c.isDigit) (hd : d.isDigit = false) : d ≠ c := by
  rintro rfl
  rw [hc] at hd
  cases hd

theorem words_digit {c : Char} {cs : List Char} (hc : c.isDigit) :
    (words.findSome? fun w => (afterWord? w.1 (c :: cs)).map fun rest => (w.2, rest)) = none := by
  simp only [words, List.findSome?, afterWord?_ne "null" rfl (digit_ne hc rfl),
    afterWord?_ne "true" rfl (digit_ne hc rfl),
    afterWord?_ne "false" rfl (digit_ne hc rfl),
    afterWord?_ne "NaN" rfl (digit_ne hc rfl),
    afterWord?_ne "Infinity" rfl (digit_ne hc rfl),
    afterWord?_ne "-Infinity" rfl (digit_ne hc rfl), Option.map_none]

theorem words_minus_digit {c : Char} {cs : List Char} (hc : c.isDigit) :
    (words.findSome? fun w => (afterWord? w.1 ('-' :: c :: cs)).map fun rest => (w.2, rest)) =
      none := by
  have hne : ('I' : Char) ≠ c := digit_ne hc rfl
  have hlast : afterWord? "-Infinity" ('-' :: c :: cs) = none := by
    simp [afterWord?, hne]
  simp only [words, List.findSome?, afterWord?_ne "null" (c := '-') rfl (by decide),
    afterWord?_ne "true" (c := '-') rfl (by decide),
    afterWord?_ne "false" (c := '-') rfl (by decide),
    afterWord?_ne "NaN" (c := '-') rfl (by decide),
    afterWord?_ne "Infinity" (c := '-') rfl (by decide), hlast, Option.map_none]

theorem readPlain_digit {c : Char} {cs : List Char} (hc : c.isDigit) :
    readPlain (c :: cs) = readNumber (c :: cs) false (c :: cs) := by
  rw [readPlain, words_digit hc]
  rintro rest ⟨⟩
  simp at hc

theorem readPlain_minus {c : Char} {cs : List Char} (hc : c.isDigit) :
    readPlain ('-' :: c :: cs) = readNumber ('-' :: c :: cs) true (c :: cs) := by
  rw [readPlain, words_minus_digit hc]

/-- The names a format gives to what is not finite are those of JSON texts. -/
def Named (f : NumberFormat) : Prop :=
  f.notANumber = "NaN" ∧ f.infinity = "Infinity"

theorem text_cons {n : Numeral} (hn : n.WellFormed) :
    ∃ c cs, n.text = c :: cs ∧ c.isDigit := by
  have hdigits := hn.whole_digits
  rcases hn.whole_start with h | ⟨c, cs, h, -⟩
  · exact ⟨'0', _, by rw [Numeral.text, h]; rfl, rfl⟩
  · rw [h] at hdigits
    exact ⟨c, _, by rw [Numeral.text, h]; rfl, hdigits c List.mem_cons_self⟩

theorem readPlain_double {f : NumberFormat} (hf : Named f) (x : Float) (hrest : Ends rest) :
    readPlain ((f.write x).toList ++ rest) = .ok (double x, rest) := by
  obtain ⟨hnan, hinf⟩ := hf
  unfold NumberFormat.write
  split
  · next hx =>
    rw [Binary64.decode_notANumber hx, hnan]
    rfl
  · next negative hx =>
    rw [Binary64.decode_infinite hx, hinf]
    cases negative <;> rfl
  · next negative m e hx =>
    obtain ⟨numeral, hwf, htext, hvalue⟩ := f.toFloat_magnitudeText hx
    obtain ⟨c, cs, hcons, hc⟩ := text_cons hwf
    have hread (start : List Char) := readNumber_numeral hwf hrest start negative
    rw [hvalue, hcons] at hread
    rw [← htext, hcons, String.toList_append, String.toList_ofList]
    cases negative
    · exact (readPlain_digit hc).trans (hread _)
    · exact (readPlain_minus hc).trans (hread _)

theorem readPlain_int {n : ℤ} (hlength : (toString n.natAbs).toList.length ≤ maxIntegerDigits)
    (hrest : Ends rest) :
    readPlain ((toString n).toList ++ rest) = .ok (int n, rest) := by
  have hread (start : List Char) (negative : Bool) :=
    readNumber_integer hlength hrest start negative
  obtain ⟨c, cs, hcons⟩ := List.exists_cons_of_ne_nil (digits_ne_nil n.natAbs)
  have hc : c.isDigit := isDigit_of_mem_digits (n := n.natAbs) (by rw [hcons]; simp)
  rw [hcons] at hread
  cases n with
  | ofNat k =>
    have htext : (toString (Int.ofNat k)).toList = c :: cs := hcons
    rw [htext]
    exact (readPlain_digit hc).trans (hread _ _)
  | negSucc k =>
    have htext : (toString (Int.negSucc k)).toList = '-' :: c :: cs := by
      have : toString (Int.negSucc k) = "-" ++ toString (k + 1) := rfl
      rw [this, String.toList_append]
      exact congrArg (['-'] ++ ·) hcons
    rw [htext]
    exact (readPlain_minus hc).trans (hread _ _)

theorem write_cons {f : NumberFormat} (hf : Named f) (n : Number) :
    ∃ c cs, (n.write f).toList = c :: cs ∧ (c.isDigit ∨ c = '-' ∨ c = 'N' ∨ c = 'I') := by
  obtain ⟨hnan, hinf⟩ := hf
  cases n with
  | int k =>
    obtain ⟨c, cs, hcons⟩ := List.exists_cons_of_ne_nil (digits_ne_nil k.natAbs)
    cases k with
    | ofNat k => exact ⟨c, cs, hcons, .inl (isDigit_of_mem_digits (n := k) (by
        rw [show (toString k).toList = c :: cs from hcons]; simp))⟩
    | negSucc k =>
      refine ⟨'-', (toString (k + 1)).toList, ?_, by simp⟩
      have : toString (Int.negSucc k) = "-" ++ toString (k + 1) := rfl
      rw [Number.write, this, String.toList_append]
      rfl
  | double x =>
    rw [Number.write, NumberFormat.write]
    split
    · exact ⟨'N', ['a', 'N'], by rw [hnan]; rfl, by simp⟩
    · next negative hx =>
      rw [hinf]
      cases negative
      · exact ⟨'I', "nfinity".toList, rfl, by simp⟩
      · exact ⟨'-', "Infinity".toList, rfl, by simp⟩
    · next negative m e hx =>
      obtain ⟨numeral, hwf, htext, -⟩ := f.toFloat_magnitudeText hx
      obtain ⟨c, cs, hcons, hc⟩ := text_cons hwf
      rw [String.toList_append, String.toList_ofList, ← htext, hcons]
      cases negative
      · exact ⟨c, cs, rfl, .inl hc⟩
      · exact ⟨'-', c :: cs, rfl, by simp⟩

/-! ### Carriage returns -/

theorem notMem_digits {digits : List Char} (h : ∀ c ∈ digits, c.isDigit) : '\r' ∉ digits :=
  fun hmem => absurd (h _ hmem) (by decide)

theorem notMem_numeral {n : Numeral} (hn : n.WellFormed) : '\r' ∉ n.text := by
  obtain ⟨whole, fraction, exponent⟩ := n
  obtain ⟨hwhole, -, hfraction, hexponent, -⟩ := hn
  have hexp : '\r' ∉ Numeral.exponentText exponent := by
    cases exponent with
    | none => simp [Numeral.exponentText]
    | some e =>
      obtain ⟨hsign, -, hdigits⟩ := hexponent e.1 e.2 rfl
      have hs : '\r' ∉ e.1 := by rcases hsign with h | h | h <;> rw [h] <;> decide
      simp [Numeral.exponentText, hs, notMem_digits hdigits]
  have hfrac : '\r' ∉ (if fraction = [] then [] else '.' :: fraction) := by
    split
    · simp
    · simp [notMem_digits hfraction]
  simp [Numeral.text, notMem_digits hwhole, hexp, hfrac]

theorem notMem_write {f : NumberFormat} (hf : Named f) (n : Number) :
    '\r' ∉ (n.write f).toList := by
  obtain ⟨hnan, hinf⟩ := hf
  cases n with
  | int k =>
    have hdigits := notMem_digits fun c => isDigit_of_mem_digits (n := k.natAbs) (c := c)
    cases k with
    | ofNat k => exact hdigits
    | negSucc k =>
      have htext : (toString (Int.negSucc k)).toList = '-' :: (toString (k + 1)).toList := by
        have : toString (Int.negSucc k) = "-" ++ toString (k + 1) := rfl
        rw [this, String.toList_append]
        rfl
      rw [Number.write, htext]
      exact List.not_mem_cons_of_ne_of_not_mem (by decide) hdigits
  | double x =>
    rw [Number.write, NumberFormat.write]
    split
    · rw [hnan]
      decide
    · next negative hx =>
      rw [hinf]
      cases negative <;> decide
    · next negative m e hx =>
      obtain ⟨numeral, hwf, htext, -⟩ := f.toFloat_magnitudeText hx
      rw [String.toList_append, String.toList_ofList, ← htext, List.mem_append, not_or]
      refine ⟨?_, notMem_numeral hwf⟩
      cases negative <;> decide

end JavaProfile.Json
