import JavaProfile.Proofs.Number.Numeral
import JavaProfile.Time.Reading

/-!
The written form of a timestamp, with or without microseconds, reads back as that timestamp.
-/

namespace JavaProfile

variable {width n : ℕ} {rest : List Char}

namespace Date

theorem length_padded (h : n < 10 ^ width) (hwidth : 0 < width) :
    (padded width n).length = width := by
  have hdigits : (toString n).toList.length ≤ width := by
    have heq : (toString n).toList = Nat.toDigits 10 n := Nat.toList_repr
    rw [heq]
    exact (Nat.length_toDigits_le_iff (by decide) hwidth).mpr h
  rw [padded, List.length_append, List.length_replicate]
  omega

theorem isDigit_of_mem_padded {c : Char} (h : c ∈ padded width n) : c.isDigit := by
  rcases List.mem_append.mp h with h | h
  · rw [List.eq_of_mem_replicate h]
    rfl
  · exact isDigit_of_mem_digits h

theorem ofDigits_padded (width n : ℕ) : Decimal.ofDigits (padded width n) = n := by
  rw [padded, Decimal.ofDigits_append, Decimal.ofDigits_zeros, Decimal.ofDigits_toString]
  omega

end Date

namespace Timestamp

open Date (padded length_padded isDigit_of_mem_padded ofDigits_padded)

theorem readDigits?_padded (h : n < 10 ^ width) (hwidth : 0 < width) :
    readDigits? width (padded width n ++ rest) = some (n, rest) := by
  have hlength := length_padded h hwidth
  have hdigits : (padded width n).all Char.isDigit := by
    rw [List.all_eq_true]
    exact fun c hc => isDigit_of_mem_padded hc
  rw [readDigits?, List.take_left' hlength, List.drop_left' hlength, if_pos ⟨hlength, hdigits⟩,
    ofDigits_padded]

theorem readDate?_write (d : Date) : readDate? (d.write ++ rest) = some (some d, rest) := by
  have hyear := d.year_range
  have hmonth := d.month_range
  have hday : d.day ≤ 31 := by
    have h := d.day_range.2
    unfold daysInMonth at h
    split_ifs at h <;> omega
  have hdate := Date.of?_self d
  rw [readDate?, Date.write]
  simp only [List.append_assoc, List.cons_append]
  rw [readDigits?_padded (by omega) (by omega)]
  simp only [Option.bind_eq_bind, Option.bind_some, readMark?, if_true]
  rw [readDigits?_padded (by omega) (by omega)]
  simp only [Option.bind_some, if_true]
  rw [readDigits?_padded (by omega) (by omega)]
  simp only [Option.bind_some]
  rw [if_pos ⟨d.month_range, d.day_range⟩, hdate]
  rfl

theorem readFraction?_write {fraction : ℕ} (h : fraction < 1000000) :
    readFraction? (if fraction = 0 then [] else '.' :: padded 6 fraction) = some (fraction, []) := by
  split
  · next hzero => rw [hzero]; rfl
  · have hlength : (padded 6 fraction).length = 6 := length_padded h (by omega)
    have hdigits : ∀ c ∈ padded 6 fraction, c.isDigit := fun c hc => isDigit_of_mem_padded hc
    have hne : padded 6 fraction ≠ [] := by
      intro hnil
      rw [hnil] at hlength
      cases hlength
    have htake : (padded 6 fraction).takeWhile Char.isDigit = padded 6 fraction :=
      List.takeWhile_eq_self_iff.mpr hdigits
    have hdrop : (padded 6 fraction).dropWhile Char.isDigit = [] :=
      List.dropWhile_eq_nil_iff.mpr hdigits
    rw [readFraction?, if_pos (.inl rfl)]
    simp only [htake, hdrop, if_neg hne, List.take_left' hlength, ofDigits_padded]

theorem readTime?_write {micros : ℕ} (h : micros < microsPerDay) :
    readTime? (padded 2 (micros / 1000000 / 3600) ++ ':' ::
      padded 2 (micros / 1000000 / 60 % 60) ++ ':' :: padded 2 (micros / 1000000 % 60) ++
      (if micros % 1000000 = 0 then [] else '.' :: padded 6 (micros % 1000000))) =
        some (micros, []) := by
  have hday : micros < 86400000000 := h
  have hsum : (micros / 1000000 / 3600 * 60 + micros / 1000000 / 60 % 60) * 60000000 +
      (micros / 1000000 % 60 * 1000000 + micros % 1000000) = micros := by omega
  rw [readTime?]
  simp only [List.append_assoc, List.cons_append]
  rw [readDigits?_padded (by omega) (by omega)]
  simp only [Option.bind_eq_bind, Option.bind_some, readMark?, if_true]
  rw [readDigits?_padded (by omega) (by omega)]
  simp only [Option.bind_some, readSeconds?, Option.bind_eq_bind]
  rw [readDigits?_padded (by omega) (by omega)]
  simp only [Option.bind_some]
  rw [readFraction?_write (by omega)]
  simp only [Option.bind_some]
  rw [if_pos (by omega)]
  simp only [Option.bind_some]
  rw [if_pos (by omega), hsum]

theorem onDay_none {t : Timestamp} : onDay t.date t.micros none = .timestamp t := by
  have hof : of? t.date t.micros = some t := dif_pos t.micros_lt
  rw [onDay, Option.bind_some, hof]
  rfl

/-- Reading a written timestamp gives it back. -/
theorem read_write (t : Timestamp) : read t.write = .timestamp t := by
  have hcalendar : readCalendar? t.write.toList = some (.timestamp t) := by
    rw [write, String.toList_ofList, readCalendar?]
    simp only [List.append_assoc]
    rw [readDate?_write]
    simp only [Option.bind_eq_bind, Option.bind_some, List.cons_append]
    have htime := readTime?_write t.micros_lt
    simp only [List.append_assoc, List.cons_append] at htime
    rw [if_pos (by rfl), htime]
    simp only [Option.bind_some, readOffset?, onDay_none]
    rfl
  rw [read, hcalendar, Option.getD_some]

end Timestamp

end JavaProfile
