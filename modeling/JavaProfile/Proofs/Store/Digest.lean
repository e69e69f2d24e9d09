import JavaProfile.Proofs.Store.Load
import JavaProfile.Proofs.Tree.Overwriting

/-!
Digests and documents are told apart. A digest is read as no profile, and no document is a digest,
even with blanks around it.
-/

namespace JavaProfile

/-! ### The characters of a digest -/

def Text.hexDigits : List Char :=
  ['0', '1', '2', '3', '4', '5', '6', '7', '8', '9', 'a', 'b', 'c', 'd', 'e', 'f']

open Text (hexDigits)

theorem Text.hexDigit_mem {n : ℕ} (h : n < 16) : hexDigit n ∈ hexDigits := by
  have hall : ∀ n < 16, hexDigit n ∈ hexDigits := by decide
  exact hall n h

theorem Text.hex_mem (width n : ℕ) : ∀ c ∈ hex width n, c ∈ hexDigits := by
  induction width generalizing n with
  | zero => simp [hex]
  | succ width ih =>
    intro c hc
    rcases List.mem_append.mp hc with hc | hc
    · exact ih _ c hc
    · obtain rfl := List.mem_singleton.mp hc
      exact hexDigit_mem (Nat.mod_lt n (by decide))

namespace Sha256

theorem digest_mem (message : List UInt8) : ∀ c ∈ (digest message).toList, c ∈ hexDigits := by
  intro c hc
  rw [digest, String.toList_ofList] at hc
  obtain ⟨w, -, hw⟩ := List.mem_flatMap.mp hc
  exact Text.hex_mem 8 w.toNat c hw

theorem digest_length (message : List UInt8) : (digest message).toList.length = 64 := by
  rw [digest, String.toList_ofList]
  simp [Text.length_hex]

theorem digest_cons (message : List UInt8) :
    ∃ c cs, (digest message).toList = c :: cs ∧ c ∈ hexDigits := by
  have hlength := digest_length message
  have hmem := digest_mem message
  cases hlist : (digest message).toList with
  | nil =>
    rw [hlist] at hlength
    cases hlength
  | cons c cs =>
    rw [hlist] at hmem
    exact ⟨c, cs, rfl, hmem c List.mem_cons_self⟩

theorem notMem_digest (message : List UInt8) : '\r' ∉ (digest message).toList := fun h =>
  absurd (digest_mem message _ h) (by decide)

end Sha256

theorem Text.isBlank_hexDigits : ∀ c ∈ hexDigits, isBlank c = false := by
  have hall : hexDigits.all (fun c => isBlank c = false) = true := by decide
  simpa using hall

theorem Sha256.trim_digest (message : List UInt8) :
    String.ofList (Text.trim (digest message).toList) = digest message := by
  rw [Text.trim_of_all fun c hc => Text.isBlank_hexDigits c (digest_mem message c hc),
    String.ofList_toList]

/-! ### Reading a digest as a document -/

namespace Json

theorem words_ne_object : ∀ w ∈ words, ∀ fields, w.2 ≠ object fields := by
  intro w hw fields hobject
  simp only [words, List.mem_cons, List.not_mem_nil, or_false] at hw
  rcases hw with rfl | rfl | rfl | rfl | rfl | rfl <;> cases hobject

theorem splitWhole?_length {cs whole rest : List Char} (h : splitWhole? cs = some (whole, rest)) :
    whole.length ≤ cs.length := by
  cases cs with
  | nil => cases h
  | cons c cs =>
    rw [splitWhole?] at h
    split at h
    · cases h
      simp
    · split at h
      · cases h
        have htake := (List.takeWhile_sublist Char.isDigit (l := cs)).length_le
        simpa using htake
      · cases h

theorem readNumber_short {start cs : List Char} {negative : Bool}
    (hlength : cs.length ≤ maxIntegerDigits) :
    (∃ n rest, readNumber start negative cs = .ok (number n, rest)) ∨
      readNumber start negative cs = stop .value start := by
  rw [readNumber]
  split
  · exact .inr rfl
  · next whole rest hwhole =>
    have hshort := splitWhole?_length hwhole
    dsimp only
    split
    · rw [if_neg (by omega)]
      exact .inl ⟨_, _, rfl⟩
    · exact .inl ⟨_, _, rfl⟩

theorem readPlain_short {cs : List Char} (hlength : cs.length ≤ maxIntegerDigits) :
    (∃ v rest, readPlain cs = .ok (v, rest) ∧ ∀ fields, v ≠ object fields) ∨
      readPlain cs = stop .value cs := by
  have hnumber {start digits : List Char} {negative : Bool}
      (hdigits : digits.length ≤ maxIntegerDigits) :
      (∃ v rest, readNumber start negative digits = .ok (v, rest) ∧ ∀ fields, v ≠ object fields) ∨
        readNumber start negative digits = stop .value start := by
    refine (readNumber_short hdigits).imp_left ?_
    rintro ⟨n, rest, hn⟩
    exact ⟨_, rest, hn, nofun⟩
  unfold readPlain
  cases hword : words.findSome? fun w => (afterWord? w.1 cs).map fun rest => (w.2, rest) with
  | some r =>
    obtain ⟨w, hw, hrest⟩ := List.exists_of_findSome?_eq_some hword
    obtain ⟨rest, -, rfl⟩ := Option.map_eq_some_iff.mp hrest
    exact .inl ⟨w.2, rest, rfl, words_ne_object w hw⟩
  | none =>
    dsimp only
    split
    · exact hnumber (by rw [List.length_cons] at hlength; omega)
    · exact hnumber hlength

/-- A short text is no object, and malformed if it is nothing else, unless it starts like a value
with parts. -/
theorem read_short {text : String} {c : Char} {cs : List Char} (hstart : text.toList = c :: cs)
    (hmark : c ≠ '\uFEFF') (hseparator : isSeparator c = false) (hquote : c ≠ '"') (hlist : c ≠ '[')
    (hobject : c ≠ '\x7b') (hlength : text.toList.length ≤ maxIntegerDigits) :
    (∃ v, read text = .ok v ∧ ∀ fields, v ≠ object fields) ∨
      ∃ refusal, read text = .error refusal ∧ refusal.isMalformed = true := by
  have hhead : ¬ (c :: cs).head? = some '\uFEFF' := fun h => hmark (Option.some.inj h)
  rw [hstart] at hlength
  rw [read, readText, hstart, if_neg hhead, skip_cons hseparator,
    readValue_plain hquote hlist hobject]
  rcases readPlain_short hlength with ⟨v, rest, hplain, hv⟩ | hplain
  · rw [hplain]
    cases hskip : skip rest with
    | nil =>
      refine .inl ⟨v, ?_, hv⟩
      dsimp only [bind, Except.bind]
      rw [hskip]
      rfl
    | cons d ds =>
      dsimp only [bind, Except.bind]
      rw [hskip]
      exact .inr ⟨_, rfl, rfl⟩
  · rw [hplain]
    exact .inr ⟨_, rfl, rfl⟩

end Json

namespace Cache

variable (c : Cache)

theorem parse_digest (message : List UInt8) (now : Timestamp) :
    ∃ fault, (c.parse now (Sha256.digest message)).result = .error (.cache fault) := by
  obtain ⟨d, ds, hstart, hd⟩ := Sha256.digest_cons message
  have hne (e : Char) (he : e ∉ hexDigits) : d ≠ e := fun heq => he (heq ▸ hd)
  have hseparator : Json.isSeparator d = false := by
    have hall : hexDigits.all (fun e => Json.isSeparator e = false) = true := by decide
    simpa using List.all_eq_true.mp hall d hd
  rw [parse, fieldsOf]
  rcases Json.read_short hstart (hne _ (by decide)) hseparator (hne _ (by decide))
    (hne _ (by decide)) (hne _ (by decide))
    (by rw [Sha256.digest_length]; decide) with
    ⟨v, hread, hv⟩ | ⟨refusal, hread, hmalformed⟩
  · rw [hread]
    cases v
    case object fields => exact absurd rfl (hv fields)
    all_goals exact ⟨_, rfl⟩
  · rw [hread]
    dsimp only
    rw [if_pos hmalformed]
    exact ⟨_, rfl⟩

/-- Where a digest stands in the place of the profile, nothing is loaded. -/
theorem load_digest {τ : Type} [FileTree τ] [LawfulTree τ] {t : τ} {message : List UInt8}
    (h : FileTree.read t c.profilePath.text = .ok (Sha256.digest message)) (now : Timestamp) :
    ∃ fault, (c.load t now).result = .error (.cache fault) := by
  rw [load_of_read h]
  exact c.parse_digest message now

end Cache

/-! ### Documents -/

theorem Profile.document_cons (p : Profile) : ∃ cs, p.document.toList = '\x7b' :: cs := by
  rw [document, Json.write, String.toList_ofList]
  exact ⟨_, rfl⟩

theorem Profile.digest_ne_document (p : Profile) {text : String}
    (h : Text.ReadsAs p.document text) (message : List UInt8) :
    String.ofList (Text.trim text.toList) ≠ Sha256.digest message := by
  obtain ⟨cs, hcs⟩ := p.document_cons
  obtain ⟨ds, hds⟩ := h.starts (by decide) hcs
  rw [hds, Text.trim_cons (by decide)]
  intro heq
  have hmem := Sha256.digest_mem message '\x7b' (by
    rw [← heq, String.toList_ofList]
    exact List.mem_cons_self)
  exact absurd hmem (by decide)

end JavaProfile
