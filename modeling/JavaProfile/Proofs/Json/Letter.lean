import JavaProfile.Json.Letter
import JavaProfile.Json.Writer
import Mathlib

/-!
Strings of JSON texts. A quoted text reads back letter by letter, whether a character stands for
itself, behind a backslash, or as the code units of its escape.
-/

namespace JavaProfile.Json

theorem hexValue?_hexDigit : ∀ n < 16, hexValue? (Text.hexDigit n) = some n := by
  decide

theorem hexUnit?_hex {n : ℕ} (hn : n < 0x10000) : hexUnit? (Text.hex 4 n) = some n := by
  have hdigit (k : ℕ) := hexValue?_hexDigit (k % 16) (Nat.mod_lt k (by decide))
  simp only [Text.hex, List.nil_append, List.cons_append, hexUnit?, hdigit]
  simp only [Option.bind_eq_bind, Option.bind_some]
  exact congrArg some (by omega)

theorem take_hex (width n : ℕ) (rest : List Char) :
    (Text.hex width n ++ rest).take width = Text.hex width n ∧
      (Text.hex width n ++ rest).drop width = rest := by
  have h := Text.length_hex width n
  exact ⟨List.take_left' h, List.drop_left' h⟩

theorem readUnit_hex {n : ℕ} (hn : n < 0x10000) {rest : List Char} (hrest : rest ≠ [])
    (mark : Char) : readUnit mark (Text.hex 4 n ++ rest) = .ok (n, rest) := by
  obtain ⟨c, cs, rfl⟩ := List.exists_cons_of_ne_nil hrest
  obtain ⟨htake, hdrop⟩ := take_hex 4 n (c :: cs)
  rw [readUnit, htake, hdrop, hexUnit?_hex hn]

theorem readEscape_unit {n : ℕ} (hn : n < 0x10000) (hlone : isHighSurrogate n = false)
    {rest : List Char} (hrest : rest ≠ []) :
    readEscape 'u' (Text.hex 4 n ++ rest) = .ok (unitLetter n, rest) := by
  rw [readEscape, if_pos rfl, readUnit_hex hn hrest]
  simp only [bind, Except.bind, hlone, Bool.false_eq_true, if_false]
  rfl

theorem readEscape_pair {high low : ℕ} (hhigh : isHighSurrogate high = true)
    (hlow : isLowSurrogate low = true) {rest : List Char} (hrest : rest ≠ []) :
    readEscape 'u' (Text.hex 4 high ++ (escapeUnit low ++ rest)) =
      .ok (.char (pairChar high low), rest) := by
  have hlarge : high < 0x10000 := by
    simp only [isHighSurrogate, Bool.and_eq_true, decide_eq_true_eq] at hhigh
    omega
  have hlarge' : low < 0x10000 := by
    simp only [isLowSurrogate, Bool.and_eq_true, decide_eq_true_eq] at hlow
    omega
  have hfive : ¬ ((Text.hex 4 low ++ rest).take 5).length < 5 := by
    have := List.length_pos_iff.mpr hrest
    rw [List.length_take, List.length_append, Text.length_hex]
    omega
  have hpartner : readPartner high (escapeUnit low ++ rest) =
      .ok (.char (pairChar high low), rest) := by
    rw [escapeUnit, List.cons_append, List.cons_append, readPartner, if_neg hfive,
      readUnit_hex hlarge' hrest]
    simp only [bind, Except.bind, hlow, if_true]
    rfl
  rw [readEscape, if_pos rfl, readUnit_hex hlarge (by simp [escapeUnit])]
  simp only [bind, Except.bind, hhigh, if_true]
  exact hpartner

theorem unitLetter_char {c : Char} (hc : c.toNat < 0x10000) :
    isHighSurrogate c.toNat = false ∧ unitLetter c.toNat = .char c := by
  have hvalid : c.toNat < 0xD800 ∨ 0xDFFF < c.toNat := by
    rcases c.valid with h | h
    · exact .inl h
    · exact .inr h.1
  have hhigh : isHighSurrogate c.toNat = false := by
    simp only [isHighSurrogate, Bool.and_eq_false_iff, decide_eq_false_iff_not]
    omega
  have hlow : isLowSurrogate c.toNat = false := by
    simp only [isLowSurrogate, Bool.and_eq_false_iff, decide_eq_false_iff_not]
    omega
  rw [unitLetter, hhigh, hlow, Char.ofNat_toNat]
  exact ⟨rfl, rfl⟩

theorem readEscape_units (c : Char) {rest : List Char} (hrest : rest ≠ []) :
    ∃ after, escapeUnits c ++ rest = '\\' :: 'u' :: after ∧
      readEscape 'u' after = .ok (.char c, rest) := by
  have hvalid : c.toNat < 0x110000 := by
    rcases c.valid with h | h
    · exact h.trans (by decide)
    · exact h.2
  unfold escapeUnits
  dsimp only
  split
  · next hc =>
    obtain ⟨hlone, hletter⟩ := unitLetter_char hc
    refine ⟨Text.hex 4 c.toNat ++ rest, rfl, ?_⟩
    rw [readEscape_unit hc hlone hrest, hletter]
  · next hc =>
    -- Beyond the first plane there are two units, which the reader joins again.
    set m := c.toNat - 0x10000 with hm
    refine ⟨Text.hex 4 (0xD800 + m / 0x400) ++ (escapeUnit (0xDC00 + m % 0x400) ++ rest), ?_, ?_⟩
    · simp [escapeUnit]
    · have hhigh : isHighSurrogate (0xD800 + m / 0x400) = true := by
        simp only [isHighSurrogate, Bool.and_eq_true, decide_eq_true_eq]
        omega
      have hlow : isLowSurrogate (0xDC00 + m % 0x400) = true := by
        simp only [isLowSurrogate, Bool.and_eq_true, decide_eq_true_eq]
        omega
      have hpair : pairChar (0xD800 + m / 0x400) (0xDC00 + m % 0x400) = c := by
        rw [pairChar, show 0x10000 + (0xD800 + m / 0x400 - 0xD800) * 0x400 +
          (0xDC00 + m % 0x400 - 0xDC00) = c.toNat by omega, Char.ofNat_toNat]
      rw [readEscape_pair hhigh hlow hrest, hpair]

theorem readLetters_escape {mark : Char} {after rest : List Char} {l : JsonLetter}
    (h : readEscape mark after = .ok (l, rest)) (start : List Char) (fuel : ℕ) :
    readLetters start (fuel + 1) ('\\' :: mark :: after) = (do
      let (ls, rest) ← readLetters start fuel rest
      return (l :: ls, rest)) := by
  rw [readLetters, if_neg (by decide), if_pos rfl]
  simp only [h, bind, Except.bind]

theorem readLetters_char (ascii : Bool) (c : Char) (start : List Char) (fuel : ℕ)
    {rest : List Char} (hrest : rest ≠ []) :
    readLetters start (fuel + 1) (escapeChar ascii c ++ rest) = (do
      let (ls, rest) ← readLetters start fuel rest
      return (.char c :: ls, rest)) := by
  unfold escapeChar
  split_ifs with hquote hback hn hr ht hb hf hcontrol hascii
  · subst hquote; exact readLetters_escape rfl start fuel
  · subst hback; exact readLetters_escape rfl start fuel
  · subst hn; exact readLetters_escape rfl start fuel
  · subst hr; exact readLetters_escape rfl start fuel
  · subst ht; exact readLetters_escape rfl start fuel
  · subst hb; exact readLetters_escape rfl start fuel
  · subst hf; exact readLetters_escape rfl start fuel
  · obtain ⟨hlone, hletter⟩ := unitLetter_char (c := c) (by omega)
    have h := readEscape_unit (n := c.toNat) (by omega) hlone hrest
    rw [hletter] at h
    exact readLetters_escape h start fuel
  · obtain ⟨after, htext, h⟩ := readEscape_units c hrest
    rw [htext]
    exact readLetters_escape h start fuel
  · obtain ⟨d, ds, rfl⟩ := List.exists_cons_of_ne_nil hrest
    rw [List.singleton_append, readLetters, if_neg hquote, if_neg hback, if_neg hcontrol]

theorem readLetters_quote (ascii : Bool) (cs start : List Char) (fuel : ℕ) (rest : List Char)
    (hfuel : cs.length < fuel) :
    readLetters start fuel (cs.flatMap (escapeChar ascii) ++ '"' :: rest) =
      .ok (cs.map .char, rest) := by
  induction cs generalizing fuel with
  | nil =>
    obtain ⟨k, rfl⟩ : ∃ k, fuel = k + 1 := ⟨fuel - 1, by simp at hfuel; omega⟩
    rfl
  | cons c cs ih =>
    obtain ⟨k, rfl⟩ : ∃ k, fuel = k + 1 := ⟨fuel - 1, by omega⟩
    rw [List.flatMap_cons, List.append_assoc, readLetters_char ascii c start k (by simp),
      ih k (by simpa using hfuel)]
    rfl

theorem ofLetters_chars (cs : List Char) :
    JsonString.ofLetters (cs.map .char) = .text (String.ofList cs) := by
  unfold JsonString.ofLetters
  dsimp only
  rw [List.mapM_map, Function.comp_def]
  dsimp only
  rw [show (fun c : Char => some c) = pure from rfl, List.mapM_pure]
  simp

theorem readString_quote (ascii : Bool) (s : String) (fuel : ℕ) (rest : List Char)
    (hfuel : s.toList.length < fuel) :
    readString fuel (s.toList.flatMap (escapeChar ascii) ++ '"' :: rest) =
      .ok (.text s, rest) := by
  rw [readString, readLetters_quote ascii _ _ _ _ hfuel]
  simp only [bind, Except.bind, ofLetters_chars, String.ofList_toList]
  rfl

/-! ### Carriage returns -/

theorem notMem_escapeUnit (n : ℕ) : '\r' ∉ escapeUnit n := by
  have hdigit : ∀ k < 16, Text.hexDigit k ≠ '\r' := by decide
  have hne (k : ℕ) : '\r' ≠ Text.hexDigit (k % 16) :=
    (hdigit (k % 16) (Nat.mod_lt k (by decide))).symm
  simp [escapeUnit, Text.hex, hne]

theorem notMem_escapeChar (ascii : Bool) (c : Char) : '\r' ∉ escapeChar ascii c := by
  have hunits : '\r' ∉ escapeUnits c := by
    unfold escapeUnits
    dsimp only
    split
    · exact notMem_escapeUnit _
    · rw [List.mem_append, not_or]
      exact ⟨notMem_escapeUnit _, notMem_escapeUnit _⟩
  unfold escapeChar
  split_ifs with hquote hback hn hr ht hb hf hcontrol hascii
  all_goals first
    | decide
    | exact notMem_escapeUnit _
    | exact hunits
    | exact fun h => hr (List.mem_singleton.mp h).symm

end JavaProfile.Json
