import ReplicaUpkeep.Text.Numeral

/-!
# Doubles as exact numbers

A finite double is a natural number times a power of two, with a sign.  Reading a decimal rounds it
to the nearest double; magnitudes that are out of range by their number of digits alone are settled
before any power of ten is computed.  Conversion to a word of 64 bits is exact: halves are rounded
away from zero and what does not fit becomes the nearest end of the range.
-/

namespace ReplicaUpkeep.Decimal

/-- The magnitude of a finite double, `mantissa * 2 ^ exponent`. -/
structure Binary where
  mantissa : Nat
  exponent : Int
  /-- The double below is half as far away as the one above. -/
  narrowBelow : Bool
  deriving DecidableEq, Repr

/-- What a double is. -/
inductive Double where
  | notNumber
  | infinite (negative : Bool)
  | finite (negative : Bool) (magnitude : Binary)
  deriving DecidableEq, Repr

/-- The number of values of the 52 bits of a fraction. -/
def fractionLimit : Nat := 4503599627370496

/-- The double of a pattern of 64 bits: a sign, eleven bits of exponent and 52 of fraction. -/
def Double.ofBits (bits : UInt64) : Double :=
  let n := bits.toNat
  let negative := decide (Text.signedLimit ≤ n)
  let exponent : Nat := n / fractionLimit % 2048
  let fraction := n % fractionLimit
  if exponent = 2047 then
    if fraction = 0 then .infinite negative else .notNumber
  else if exponent = 0 then .finite negative ⟨fraction, -1074, false⟩
  else .finite negative ⟨fractionLimit + fraction, (exponent : Int) - 1075, fraction = 0 && 1 < exponent⟩

/-- What a floating-point number is. -/
def Double.ofFloat (x : Float) : Double :=
  .ofBits x.toBits

/-- The magnitude rounded to a natural number, halves upwards. -/
def Binary.round (b : Binary) : Nat :=
  if 0 ≤ b.exponent then b.mantissa * Nat.pow 2 b.exponent.toNat
  else
    let unit := Nat.pow 2 (-b.exponent).toNat
    (2 * b.mantissa + unit) / (2 * unit)

/-- The nearest word of 64 bits, halves away from zero; what is no number becomes zero. -/
def Double.toWord : Double → UInt64
  | .notNumber => 0
  | .infinite negative => if negative then 0 else UInt64.ofNat (Text.wordLimit - 1)
  | .finite negative b =>
    if negative then 0 else UInt64.ofNat (min b.round (Text.wordLimit - 1))

/-- The double nearest to `mantissa * 10 ^ exponent` with a sign. -/
def nearest (negative : Bool) (mantissa : Nat) (exponent : Int) : Float :=
  let top := (Text.decimal mantissa).length + exponent
  let magnitude : Float :=
    if mantissa = 0 ∨ top < -400 then 0
    else if 400 < top then Float.ofBits 0x7FF0000000000000
    else Float.ofScientific mantissa (decide (exponent < 0)) exponent.natAbs
  if negative then -magnitude else magnitude

end ReplicaUpkeep.Decimal
