/-!
# Decimal numerals

Reading and writing natural numbers in decimal.  A bounded numeral is one or more ASCII digits,
leading zeros allowed, whose value fits below a limit; the written form has no leading zeros.  Only
the ten ASCII digits count as digits.
-/

namespace ReplicaUpkeep.Text

/-- The decimal digits of a number, without leading zeros. -/
def decimal (n : Nat) : List Char :=
  Nat.toDigits 10 n

/-- The value of a list of digits. -/
def digitsValue (cs : List Char) : Nat :=
  Nat.ofDigitChars 10 cs 0

/-- A whole text of one or more digits, read as a number. -/
def numeral? (cs : List Char) : Option Nat :=
  if cs ≠ [] ∧ cs.all Char.isDigit then some (digitsValue cs) else none

/-- A whole text of one or more digits with at most one plus sign in front, below a limit. -/
def signedNumeral? (limit : Nat) (cs : List Char) : Option Nat :=
  let digits := match cs with
    | '+' :: rest => rest
    | _ => cs
  (numeral? digits).filter (fun n => decide (n < limit))

/-- The value of a hexadecimal digit. -/
def hexDigit? (c : Char) : Option Nat :=
  if '0' ≤ c ∧ c ≤ '9' then some (c.toNat - '0'.toNat)
  else if 'a' ≤ c ∧ c ≤ 'f' then some (c.toNat - 'a'.toNat + 10)
  else if 'A' ≤ c ∧ c ≤ 'F' then some (c.toNat - 'A'.toNat + 10)
  else none

/-- The value of one or more digits of a radix of at most sixteen, the first digit first. -/
def radixValue? (radix : Nat) (cs : List Char) : Option Nat :=
  if cs = [] then none
  else
    cs.foldlM
      (fun n c => ((hexDigit? c).filter (fun d => decide (d < radix))).map (n * radix + ·)) 0

/-- The number of values of an unsigned word of 64 bits. -/
def wordLimit : Nat := 18446744073709551616

/-- The number of values of an unsigned word of 32 bits. -/
def halfWordLimit : Nat := 4294967296

/-- The least natural number above every signed word of 64 bits. -/
def signedLimit : Nat := 9223372036854775808

/-- A number written with at least the given count of digits, zeros in front. -/
def padded (width n : Nat) : List Char :=
  List.replicate (width - (decimal n).length) '0' ++ decimal n

theorem decimal_ne_nil (n : Nat) : decimal n ≠ [] :=
  Nat.toDigits_ne_nil

theorem isDigit_of_mem_decimal {n : Nat} {c : Char} (h : c ∈ decimal n) : c.isDigit = true :=
  Nat.isDigit_of_mem_toDigits (by decide) (by decide) h

@[simp]
theorem digitsValue_decimal (n : Nat) : digitsValue (decimal n) = n :=
  Nat.ofDigitChars_ten_toDigits

end ReplicaUpkeep.Text
