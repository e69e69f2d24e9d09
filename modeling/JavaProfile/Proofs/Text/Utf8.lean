import JavaProfile.Text.Line
import JavaProfile.Text.Utf8
import Mathlib

/-!
The bytes of a text decode to that text, one character after the other.
-/

namespace JavaProfile.Text

theorem toNat_ofNat {n : ℕ} (h : n < 256) : (UInt8.ofNat n).toNat = n :=
  UInt8.toNat_ofNat_of_lt' h

variable {u : Unfinished} {n : ℕ}

theorem decodeFrom_last (hn : n < 256) (hlow : u.low ≤ n) (hhigh : n ≤ u.high)
    (hlast : u.missing ≤ 1) (bs : List UInt8) :
    decodeFrom (some u) (UInt8.ofNat n :: bs) =
      Char.ofNat (u.bits * 64 + (n - 0x80)) :: decodeFrom none bs := by
  rw [decodeFrom, toNat_ofNat hn, if_pos ⟨hlow, hhigh⟩, Unfinished.add, if_pos hlast]

theorem decodeFrom_more (hn : n < 256) (hlow : u.low ≤ n) (hhigh : n ≤ u.high)
    (hmore : 1 < u.missing) (bs : List UInt8) :
    decodeFrom (some u) (UInt8.ofNat n :: bs) =
      decodeFrom (some ⟨u.bits * 64 + (n - 0x80), u.missing - 1, 0x80, 0xBF⟩) bs := by
  rw [decodeFrom, toNat_ofNat hn, if_pos ⟨hlow, hhigh⟩, Unfinished.add, if_neg (by omega)]

theorem decodeFrom_begin (hn : n < 256) (hbegin : begin n = .inr u) (bs : List UInt8) :
    decodeFrom none (UInt8.ofNat n :: bs) = decodeFrom (some u) bs := by
  rw [decodeFrom, toNat_ofNat hn, hbegin]

theorem begin_two (hlow : 0xC2 ≤ n) (hhigh : n < 0xE0) :
    begin n = .inr ⟨n - 0xC0, 1, 0x80, 0xBF⟩ := by
  rw [begin, if_neg (by omega), if_neg (by omega), if_pos hhigh]

theorem begin_three (hlow : 0xE0 ≤ n) (hhigh : n < 0xF0) :
    begin n =
      .inr ⟨n - 0xE0, 2, if n = 0xE0 then 0xA0 else 0x80, if n = 0xED then 0x9F else 0xBF⟩ := by
  rw [begin, if_neg (by omega), if_neg (by omega), if_neg (by omega), if_pos hhigh]

theorem begin_four (hlow : 0xF0 ≤ n) (hhigh : n < 0xF5) :
    begin n =
      .inr ⟨n - 0xF0, 3, if n = 0xF0 then 0x90 else 0x80, if n = 0xF4 then 0x8F else 0xBF⟩ := by
  rw [begin, if_neg (by omega), if_neg (by omega), if_neg (by omega), if_neg (by omega),
    if_pos hhigh]

theorem decodeFrom_char (c : Char) (bs : List UInt8) :
    decodeFrom none (String.utf8EncodeChar c ++ bs) = c :: decodeFrom none bs := by
  have hvalid : c.val.toNat < 0xD800 ∨ 0xDFFF < c.val.toNat ∧ c.val.toNat < 0x110000 := c.valid
  have hc : Char.ofNat c.val.toNat = c := Char.ofNat_toNat c
  -- By the number of bytes, in the ranges of the encoder.
  unfold String.utf8EncodeChar
  dsimp only
  generalize c.val.toNat = v at hvalid hc
  split
  · next h1 =>
    rw [List.cons_append, decodeFrom, toNat_ofNat (by omega), begin, if_pos (by omega), hc]
    rfl
  · next h1 =>
    split
    · next h2 =>
      simp only [List.cons_append, List.nil_append]
      rw [decodeFrom_begin (by omega) (begin_two (by omega) (by omega)),
        decodeFrom_last (by omega) (by dsimp only; omega) (by dsimp only; omega) (by rfl)]
      dsimp only
      rw [show (v / 64 % 32 + 192 - 192) * 64 + (v % 64 + 128 - 128) = v by omega, hc]
    · next h2 =>
      split
      · next h3 =>
        simp only [List.cons_append, List.nil_append]
        rw [decodeFrom_begin (by omega) (begin_three (by omega) (by omega)),
          decodeFrom_more (by omega) (by dsimp only; split <;> omega)
            (by dsimp only; split <;> omega) (by dsimp only; omega),
          decodeFrom_last (by omega) (by dsimp only; omega) (by dsimp only; omega) (by rfl)]
        dsimp only
        rw [show ((v / 4096 % 16 + 224 - 224) * 64 + (v / 64 % 64 + 128 - 128)) * 64 +
          (v % 64 + 128 - 128) = v by omega, hc]
      · next h3 =>
        simp only [List.cons_append, List.nil_append]
        rw [decodeFrom_begin (by omega) (begin_four (by omega) (by omega)),
          decodeFrom_more (by omega) (by dsimp only; split <;> omega)
            (by dsimp only; split <;> omega) (by dsimp only; omega),
          decodeFrom_more (by omega) (by dsimp only; omega) (by dsimp only; omega) (by dsimp only; omega),
          decodeFrom_last (by omega) (by dsimp only; omega) (by dsimp only; omega) (by rfl)]
        dsimp only
        rw [show (((v / 262144 % 8 + 240 - 240) * 64 + (v / 4096 % 64 + 128 - 128)) * 64 +
          (v / 64 % 64 + 128 - 128)) * 64 + (v % 64 + 128 - 128) = v by omega, hc]

theorem decodeFrom_chars (cs : List Char) :
    decodeFrom none (cs.flatMap String.utf8EncodeChar) = cs := by
  induction cs with
  | nil => rfl
  | cons c cs ih => rw [List.flatMap_cons, decodeFrom_char, ih]

theorem toList_loop (bytes : ByteArray) (i : ℕ) (r : List UInt8) :
    ByteArray.toList.loop bytes i r = r.reverse ++ bytes.data.toList.drop i := by
  fun_induction ByteArray.toList.loop bytes i r with
  | case1 i r h ih =>
    have hlt : i < bytes.data.toList.length := h
    have hget : bytes.get! i = bytes.data.toList[i] := by
      change bytes.data[i]! = _
      rw [getElem!_pos bytes.data i h, Array.getElem_toList]
    rw [ih, List.reverse_cons, List.append_assoc, hget, List.drop_eq_getElem_cons hlt]
    rfl
  | case2 i r h =>
    rw [List.drop_eq_nil_of_le (by simpa using h), List.append_nil]

theorem encode_eq (s : String) : encode s = s.toList.flatMap String.utf8EncodeChar := by
  have hbytes : s.toByteArray = (s.toList.flatMap String.utf8EncodeChar).toByteArray := by
    rw [← String.utf8Encode_toList]
    rfl
  rw [encode, String.toUTF8_eq_toByteArray, hbytes, ByteArray.toList, toList_loop,
    List.toList_data_toByteArray]
  rfl

theorem decode_encode (s : String) : decode (encode s) = s.toList := by
  rw [decode, encode_eq, decodeFrom_chars]

theorem encode_injective : Function.Injective encode := by
  intro s s' h
  have hdecode := congrArg decode h
  rw [decode_encode, decode_encode] at hdecode
  exact String.toList_inj.mp hdecode

theorem length_encode (s : String) : (encode s).length = s.utf8ByteSize := by
  rw [encode, ByteArray.toList, toList_loop]
  simp only [List.reverse_nil, List.nil_append, List.drop_zero]
  rfl

theorem unifyBreaks_of_notMem {cs : List Char} (h : '\r' ∉ cs) : unifyBreaks cs = cs := by
  induction cs with
  | nil => rfl
  | cons c cs ih =>
    simp only [List.mem_cons, not_or] at h
    have hopens : opensBreak c cs = false := by
      simp [opensBreak, Ne.symm h.1]
    rw [unifyBreaks, hopens, if_neg (Ne.symm h.1), ih h.2]
    rfl

end JavaProfile.Text
