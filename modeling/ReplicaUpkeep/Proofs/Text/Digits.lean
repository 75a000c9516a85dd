import Mathlib.Algebra.Group.Nat.Defs
import ReplicaUpkeep.Text.Numeral

/-!
# Digits in a longer text

A number that is written in front of something else is found again when the rest does not go on with
a digit.  The written form of a number has no needless zero, and the one of fixed width has exactly
that width as long as the number fits.
-/

namespace ReplicaUpkeep.Text

/-- Something other than a digit stands in front, or nothing at all. -/
def EndsDigits (cs : List Char) : Prop :=
  ∀ c ∈ cs.head?, c.isDigit = false

theorem endsDigits_nil : EndsDigits [] :=
  nofun

theorem endsDigits_cons {c : Char} {cs : List Char} (h : c.isDigit = false) : EndsDigits (c :: cs) := by
  rintro d hd
  obtain rfl : c = d := Option.some.inj hd
  exact h

theorem EndsDigits.take {cs : List Char} (h : EndsDigits cs) (n : Nat) : EndsDigits (cs.take n) := by
  cases n with
  | zero => exact endsDigits_nil
  | succ n =>
    cases cs with
    | nil => exact endsDigits_nil
    | cons c cs => exact endsDigits_cons (h c rfl)

section Span

variable {digits rest : List Char} (hDigits : ∀ c ∈ digits, c.isDigit = true)
  (hRest : EndsDigits rest)
include hDigits hRest

theorem takeWhile_isDigit_append : (digits ++ rest).takeWhile Char.isDigit = digits := by
  rw [List.takeWhile_append_of_pos hDigits]
  cases rest with
  | nil => simp
  | cons c rest => simp [hRest c rfl]

theorem dropWhile_isDigit_append : (digits ++ rest).dropWhile Char.isDigit = rest := by
  rw [List.dropWhile_append_of_pos hDigits]
  cases rest with
  | nil => simp
  | cons c rest => simp [hRest c rfl]

end Span

/-- Only zero begins with a zero. -/
theorem eq_zero_of_head?_decimal {n : Nat} (h : (decimal n).head? = some '0') : n = 0 := by
  induction n using Nat.strongRecOn with
  | ind n ih =>
    rcases Nat.lt_or_ge n 10 with hOne | hMore
    · have hDigit : ∀ d < 10, [Nat.digitChar d].head? = some '0' → d = 0 := by decide
      rw [decimal, Nat.toDigits_of_lt_base hOne] at h
      exact hDigit n hOne h
    · -- The first digit is the first one of a tenth of the number.
      rw [decimal, Nat.toDigits_of_base_le (by decide) hMore, ← decimal, List.head?_append,
        List.head?_eq_some_head (decimal_ne_nil _), Option.some_or,
        ← List.head?_eq_some_head] at h
      have hTenth := ih (n / 10) (by omega) h
      omega

theorem length_decimal_of_head? {n : Nat} (h : (decimal n).head? = some '0') :
    (decimal n).length = 1 := by
  rw [eq_zero_of_head?_decimal h]
  rfl

/-- A written number begins with a digit. -/
theorem exists_decimal_eq_cons (n : Nat) : ∃ c ds, decimal n = c :: ds ∧ c.isDigit = true := by
  obtain ⟨c, ds, hDigits⟩ := List.exists_cons_of_ne_nil (decimal_ne_nil n)
  exact ⟨c, ds, hDigits, isDigit_of_mem_decimal (hDigits ▸ List.mem_cons_self)⟩

theorem isDigit_of_mem_padded {width n : Nat} {c : Char} (h : c ∈ padded width n) :
    c.isDigit = true := by
  rcases List.mem_append.1 h with hZero | hDigit
  · rw [List.eq_of_mem_replicate hZero]
    rfl
  · exact isDigit_of_mem_decimal hDigit

@[simp]
theorem digitsValue_padded (width n : Nat) : digitsValue (padded width n) = n := by
  rw [digitsValue, padded, Nat.ofDigitChars_append, Nat.ofDigitChars_replicate_zero, Nat.mul_zero]
  exact digitsValue_decimal n

/-- A number that fits has exactly the width it is written with. -/
theorem length_padded {width n : Nat} (hWidth : 0 < width) (hFits : n < 10 ^ width) :
    (padded width n).length = width := by
  have hLength : (decimal n).length ≤ width :=
    (Nat.length_toDigits_le_iff (by decide) hWidth).2 hFits
  rw [padded, List.length_append, List.length_replicate]
  omega

theorem le_length_padded (width n : Nat) : width ≤ (padded width n).length := by
  rw [padded, List.length_append, List.length_replicate]
  omega

theorem exists_padded_eq_cons {width : Nat} (hWidth : 0 < width) (n : Nat) :
    ∃ c ds, padded width n = c :: ds ∧ c.isDigit = true := by
  have hLength := le_length_padded width n
  obtain ⟨c, ds, hDigits⟩ := List.exists_cons_of_length_pos (l := padded width n) (by omega)
  exact ⟨c, ds, hDigits, isDigit_of_mem_padded (hDigits ▸ List.mem_cons_self)⟩

theorem padded_ne_nil {width : Nat} (hWidth : 0 < width) (n : Nat) : padded width n ≠ [] := by
  obtain ⟨c, ds, hDigits, -⟩ := exists_padded_eq_cons hWidth n
  rw [hDigits]
  exact List.cons_ne_nil c ds

section Padded

variable (width n : Nat) {rest : List Char} (hRest : EndsDigits rest)
include hRest

theorem takeWhile_padded_append :
    (padded width n ++ rest).takeWhile Char.isDigit = padded width n :=
  takeWhile_isDigit_append (fun _ => isDigit_of_mem_padded) hRest

theorem dropWhile_padded_append : (padded width n ++ rest).dropWhile Char.isDigit = rest :=
  dropWhile_isDigit_append (fun _ => isDigit_of_mem_padded) hRest

end Padded

/-! ## Numerals with a sign -/

/-- One or more digits and nothing else. -/
structure IsNumeral (cs : List Char) : Prop where
  ne_nil : cs ≠ []
  isDigit : ∀ c ∈ cs, c.isDigit = true

theorem isNumeral_decimal (n : Nat) : IsNumeral (decimal n) where
  ne_nil := decimal_ne_nil n
  isDigit := fun _ => isDigit_of_mem_decimal

theorem numeral?_eq_some_iff (cs : List Char) (n : Nat) :
    numeral? cs = some n ↔ IsNumeral cs ∧ digitsValue cs = n := by
  rw [numeral?, Option.ite_none_right_eq_some, Option.some.injEq, List.all_eq_true]
  exact and_congr_left fun _ => ⟨fun h => ⟨h.1, h.2⟩, fun h => ⟨h.1, h.2⟩⟩

/-- Digits with a plus sign in front, if there is to be one. -/
def signed (plus : Bool) (digits : List Char) : List Char :=
  if plus then '+' :: digits else digits

theorem getLast?_signed (plus : Bool) {digits : List Char} (h : IsNumeral digits) :
    (signed plus digits).getLast? = digits.getLast? := by
  cases plus with
  | false => rfl
  | true =>
    obtain ⟨c, rest, rfl⟩ := List.exists_cons_of_ne_nil h.ne_nil
    rfl

/-- The one plus sign is dropped. -/
theorem signedNumeral?_signed (limit : Nat) (plus : Bool) {digits : List Char}
    (h : IsNumeral digits) :
    signedNumeral? limit (signed plus digits) =
      if digitsValue digits < limit then some (digitsValue digits) else none := by
  have hValue : numeral? digits = some (digitsValue digits) := (numeral?_eq_some_iff _ _).2 ⟨h, rfl⟩
  have hDigits : signedNumeral? limit (signed plus digits) =
      (numeral? digits).filter fun n => decide (n < limit) := by
    cases plus with
    | true => rfl
    | false =>
      -- A digit in front is no plus sign.
      obtain ⟨c, rest, rfl⟩ := List.exists_cons_of_ne_nil h.ne_nil
      have hNoPlus : c ≠ '+' := fun hPlus => by
        have hDigit := h.isDigit c List.mem_cons_self
        rw [hPlus] at hDigit
        exact absurd hDigit (by decide)
      simp only [signed, signedNumeral?]
      split
      · rename_i hPlus
        exact absurd (List.cons.inj hPlus).1 hNoPlus
      · rfl
  rw [hDigits, hValue]
  simp [Option.filter]

/-- Whatever is read as a number with a sign is written as one, and fits. -/
theorem exists_signed_of_signedNumeral? {limit n : Nat} {cs : List Char}
    (h : signedNumeral? limit cs = some n) :
    ∃ plus digits, cs = signed plus digits ∧ IsNumeral digits ∧ digitsValue digits = n ∧
      n < limit := by
  have hNumber : ∀ digits, (numeral? digits).filter (fun n => decide (n < limit)) = some n →
      IsNumeral digits ∧ digitsValue digits = n ∧ n < limit := by
    intro digits hRead
    rw [Option.filter_eq_some_iff, numeral?_eq_some_iff, decide_eq_true_eq] at hRead
    exact and_assoc.1 hRead
  unfold signedNumeral? at h
  split at h
  · exact ⟨true, _, rfl, hNumber _ h⟩
  · exact ⟨false, _, rfl, hNumber _ h⟩

end ReplicaUpkeep.Text
