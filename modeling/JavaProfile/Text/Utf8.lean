/-!
Bytes as UTF-8. Where they are not, each longest beginning of a character, or each byte that begins
none, stands for one replacement character.
-/

namespace JavaProfile.Text

/-- A character of which some bytes have been read. The next byte lies between `low` and `high`. -/
structure Unfinished where
  bits : Nat
  /-- Bytes that follow, the next one included. -/
  missing : Nat
  low : Nat
  high : Nat

def replacement : Char := '\uFFFD'

/-- What a byte begins: a character that is whole, one that is not, or none. -/
def begin (b : Nat) : Char ⊕ Unfinished :=
  if b < 0x80 then .inl (Char.ofNat b)
  else if b < 0xC2 then .inl replacement
  else if b < 0xE0 then .inr ⟨b - 0xC0, 1, 0x80, 0xBF⟩
  else if b < 0xF0 then
    .inr ⟨b - 0xE0, 2, if b = 0xE0 then 0xA0 else 0x80, if b = 0xED then 0x9F else 0xBF⟩
  else if b < 0xF5 then
    .inr ⟨b - 0xF0, 3, if b = 0xF0 then 0x90 else 0x80, if b = 0xF4 then 0x8F else 0xBF⟩
  else .inl replacement

/-- An unfinished character with one byte more. -/
def Unfinished.add (u : Unfinished) (b : Nat) : Char ⊕ Unfinished :=
  let bits := u.bits * 64 + (b - 0x80)
  if u.missing ≤ 1 then .inl (Char.ofNat bits) else .inr ⟨bits, u.missing - 1, 0x80, 0xBF⟩

/-- Characters of bytes, after the bytes of an unfinished one. -/
def decodeFrom : Option Unfinished → List UInt8 → List Char
  | none, [] => []
  | some _, [] => [replacement]
  | none, b :: bs =>
    match begin b.toNat with
    | .inl c => c :: decodeFrom none bs
    | .inr u => decodeFrom (some u) bs
  | some u, b :: bs =>
    if u.low ≤ b.toNat ∧ b.toNat ≤ u.high then
      match u.add b.toNat with
      | .inl c => c :: decodeFrom none bs
      | .inr u => decodeFrom (some u) bs
    else
      match begin b.toNat with
      | .inl c => replacement :: c :: decodeFrom none bs
      | .inr u => replacement :: decodeFrom (some u) bs

def decode (bytes : List UInt8) : List Char :=
  decodeFrom none bytes

def encode (s : String) : List UInt8 :=
  s.toUTF8.toList

end JavaProfile.Text
