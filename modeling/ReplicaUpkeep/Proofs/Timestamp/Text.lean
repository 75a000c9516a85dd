import ReplicaUpkeep.Proofs.Text.Digits
import ReplicaUpkeep.Proofs.Text.Trimming
import ReplicaUpkeep.Timestamp.Text

/-!
# Points in time that are read back

Every point in time is read back from its text: fields of fixed width give their numbers again, the
year also when it needs a sign, and the fraction whatever its length.  The offset that is written is
that of UTC, and shifting by it leaves a date and time as it is.
-/

namespace ReplicaUpkeep

namespace Civil

theorem daysInMonth_le (year : Int) (month : Nat) : daysInMonth year month ≤ 31 := by
  unfold daysInMonth
  split <;> first | decide | (split <;> decide)

/-- Only twelve months have days. -/
theorem month_le_of_daysInMonth_pos {year : Int} {month : Nat} (h : 0 < daysInMonth year month) :
    month ≤ 12 := by
  unfold daysInMonth at h
  split at h <;> first | decide | simp at h

end Civil

namespace Timestamp

/-- A number of fixed width that is not blank in front. -/
theorem trimStart_padded {width : Nat} (hWidth : 0 < width) (n : Nat) (rest : List Char) :
    Text.trimStart (Text.padded width n ++ rest) = Text.padded width n ++ rest := by
  obtain ⟨c, ds, hCons, hc⟩ := Text.exists_padded_eq_cons hWidth n
  rw [hCons, List.cons_append, Text.trimStart_cons (Text.isBlank_eq_false_of_isDigit hc)]

/-- A number is read back from its fixed width, whatever follows. -/
theorem number?_padded {width n : Nat} (hWidth : 0 < width) (hFits : n < 10 ^ width)
    (rest : List Char) : number? width (Text.padded width n ++ rest) = some (n, rest) := by
  have hLength := Text.length_padded hWidth hFits
  have hDigits : (Text.padded width n).takeWhile Char.isDigit = Text.padded width n := by
    have hFound := Text.takeWhile_padded_append width n Text.endsDigits_nil
    rwa [List.append_nil] at hFound
  have hTake : (Text.padded width n ++ rest).take width = Text.padded width n := by
    rw [List.take_append_of_le_length (by omega), List.take_of_length_le (by omega)]
  unfold number?
  simp only [trimStart_padded hWidth, hTake, hDigits]
  split
  · rename_i hNone
    exact absurd hNone (Text.padded_ne_nil hWidth n)
  · simp

theorem digitsInFront?_padded {width : Nat} (hWidth : 0 < width) (n : Nat) {rest : List Char}
    (h : Text.EndsDigits rest) :
    year?.digitsInFront? (Text.padded width n ++ rest) = some (n, rest) := by
  unfold year?.digitsInFront?
  rw [Text.takeWhile_padded_append width n h, Text.dropWhile_padded_append width n h]
  split
  · rename_i hNone
    exact absurd hNone (Text.padded_ne_nil hWidth n)
  · simp

/-- A year is read back with its sign, or without one where it has four digits. -/
theorem year?_renderYear (year : Int) {rest : List Char} (h : Text.EndsDigits rest) :
    year? (renderYear year ++ rest) = some (year, rest) := by
  rw [renderYear]
  split
  · rename_i hPlain
    have hRead := number?_padded (show 0 < 4 by decide) (show year.toNat < 10 ^ 4 by omega) rest
    obtain ⟨c, ds, hCons, hc⟩ := Text.exists_padded_eq_cons (show 0 < 4 by decide) year.toNat
    have hMinus : c ≠ '-' := by rintro rfl; simp at hc
    have hPlus : c ≠ '+' := by rintro rfl; simp at hc
    unfold year?
    rw [trimStart_padded (by decide)]
    simp only [hCons, List.cons_append] at hRead ⊢
    split
    · simp_all
    · simp_all
    · rw [hRead, Option.map_some, Int.toNat_of_nonneg hPlain.1]
  · rename_i hSigned
    have hRead := digitsInFront?_padded (show 0 < 4 by decide) year.natAbs h
    rw [List.cons_append]
    split
    · rename_i hNegative
      simp only [year?, Text.trimStart_cons (show Text.isBlank '-' = false by decide), hRead]
      simp only [Option.map_some, Option.some.injEq, Prod.mk.injEq, and_true]
      omega
    · rename_i hPositive
      simp only [year?, Text.trimStart_cons (show Text.isBlank '+' = false by decide), hRead]
      simp only [Option.map_some, Option.some.injEq, Prod.mk.injEq, and_true]
      omega

theorem mark?_cons {c : Char} (h : Text.isBlank c = false) (rest : List Char) :
    mark? c (c :: rest) = some rest := by
  simp [mark?, Text.trimStart_cons h]

/-- A fraction of up to nine digits gives nanoseconds. -/
theorem fraction?_padded {width n : Nat} (hWidth : 0 < width) (hNine : width ≤ 9)
    (hFits : n < 10 ^ width) {rest : List Char} (h : Text.EndsDigits rest) :
    fraction? ('.' :: (Text.padded width n ++ rest)) = some (n * 10 ^ (9 - width), rest) := by
  have hLength := Text.length_padded hWidth hFits
  have hTake : ((Text.padded width n ++ rest).take 9).takeWhile Char.isDigit =
      Text.padded width n := by
    rw [List.take_append, hLength, List.take_of_length_le (by omega),
      Text.takeWhile_padded_append width n (h.take _)]
  simp only [fraction?, hTake, Text.dropWhile_padded_append width n h]
  split
  · rename_i hNone
    exact absurd hNone (Text.padded_ne_nil hWidth n)
  · simp [hLength]

/-- A fraction is read back whichever of its lengths is the least exact one. -/
theorem fraction?_renderFraction {nano : Nat} (h : nano < 1000000000) {c : Char} {rest : List Char}
    (hc : c.isDigit = false) (hPoint : c ≠ '.') :
    fraction? (renderFraction nano ++ c :: rest) = some (nano, c :: rest) := by
  have hEnds : Text.EndsDigits (c :: rest) := Text.endsDigits_cons hc
  rw [renderFraction]
  split
  · rename_i hZero
    subst hZero
    unfold fraction?
    split <;> simp_all
  · split
    · rw [List.cons_append, fraction?_padded (by decide) (by decide) (by omega) hEnds]
      simp only [Option.some.injEq, Prod.mk.injEq, and_true]
      omega
    · split
      · rw [List.cons_append, fraction?_padded (by decide) (by decide) (by omega) hEnds]
        simp only [Option.some.injEq, Prod.mk.injEq, and_true]
        omega
      · rw [List.cons_append, fraction?_padded (by decide) (by decide) (by omega) hEnds]
        simp

/-- What the fields of a point in time are at most. -/
theorem bounds (t : Timestamp) :
    t.civil.month < 100 ∧ t.civil.day < 100 ∧ t.civil.hour < 24 ∧ t.civil.minute < 60 ∧
      t.civil.second < 100 ∧ t.civil.nano < 1000000000 := by
  obtain ⟨c, hValid⟩ := t
  simp only [Civil.isValid, Bool.and_eq_true, decide_eq_true_eq] at hValid
  obtain ⟨⟨⟨⟨⟨⟨⟨-, -⟩, hFirst⟩, hLast⟩, hHour⟩, hMinute⟩, hSecond⟩, hNano⟩ := hValid
  have hDays := Civil.daysInMonth_le c.year c.month
  have hSome : 0 < Civil.daysInMonth c.year c.month := by omega
  have hMonth := Civil.month_le_of_daysInMonth_pos hSome
  refine ⟨?_, ?_, hHour, hMinute, ?_, hNano⟩ <;> simp only <;> omega

/-- The date and time that are written are those that are read, in UTC. -/
theorem local?_render (t : Timestamp) : local? t.render.toList = some (t.civil, 0) := by
  obtain ⟨hMonth, hDay, hHour, hMinute, hSecond, hNano⟩ := t.bounds
  have hField : ∀ {n : Nat} (rest : List Char), n < 100 →
      number? 2 (Text.padded 2 n ++ rest) = some (n, rest) := fun rest h =>
    number?_padded (by decide) h rest
  simp only [render, String.toList_ofList, List.append_assoc, List.cons_append, local?]
  rw [year?_renderYear _ (Text.endsDigits_cons (by decide))]
  simp only [Option.bind_eq_bind, Option.bind_some, mark?_cons (show Text.isBlank '-' = false by decide),
    mark?_cons (show Text.isBlank ':' = false by decide), hField _ hMonth, hField _ hDay,
    hField _ (Nat.lt_trans hHour (by decide)), hField _ (Nat.lt_trans hMinute (by decide)),
    hField _ hSecond, fraction?_renderFraction hNano (show Char.isDigit 'Z' = false by decide)
      (show 'Z' ≠ '.' by decide)]
  rfl

end Timestamp

/-- Nothing is shifted by an offset of no minutes. -/
theorem Civil.earlier_zero {c : Civil} (hHour : c.hour < 24) (hMinute : c.minute < 60) :
    c.earlier 0 = c := by
  have hWithin : ¬ (c.hour * 60 + c.minute - 0 : Int) < 0 ∧
      ¬ (1440 : Int) ≤ c.hour * 60 + c.minute - 0 := by omega
  have hMinutes : (c.hour * 60 + c.minute - 0 : Int).toNat = c.hour * 60 + c.minute := by omega
  simp only [earlier, if_neg hWithin.1, if_neg hWithin.2, hMinutes, atMinute]
  have hHourKept : (c.hour * 60 + c.minute) / 60 = c.hour := by omega
  have hMinuteKept : (c.hour * 60 + c.minute) % 60 = c.minute := by omega
  rw [hHourKept, hMinuteKept]

/-- Every point in time is read back from its text. -/
theorem Timestamp.parse?_render (t : Timestamp) : parse? t.render = some t := by
  obtain ⟨-, -, hHour, hMinute, -, -⟩ := t.bounds
  simp [parse?, local?_render, Civil.earlier_zero hHour hMinute, t.valid, ofCivil?]

end ReplicaUpkeep
