import ReplicaUpkeep.Decimal.Double

/-!
# The shortest decimal of a double

Of all decimals that are read back as a given double, the one with the fewest digits, and of those
the nearest to the exact value; of two equally near ones the larger.  Everything is decided in exact
natural arithmetic: a decimal is read back as the double if it lies between the halfway points to the
two neighbours, ends included when the mantissa is even.  The written form never has an exponent.
-/

namespace ReplicaUpkeep.Decimal

/-- The number `digits * 10 ^ exponent`. -/
structure Scaled where
  digits : Nat
  exponent : Int
  deriving DecidableEq, Repr

/-- How `a * 10 ^ i` compares with `n * 2 ^ j`. -/
def compareScaled (a : Nat) (i : Int) (n : Nat) (j : Int) : Ordering :=
  compare (a * Nat.pow 10 i.toNat * Nat.pow 2 (-j).toNat)
    (n * Nat.pow 2 j.toNat * Nat.pow 10 (-i).toNat)

/-- Is the decimal read back as the double?  Both ends of its interval are counted in quarters of the
double's unit. -/
def Binary.covers (b : Binary) (d : Scaled) : Bool :=
  let low := 4 * b.mantissa - if b.narrowBelow then 1 else 2
  let high := 4 * b.mantissa + 2
  let inclusive := b.mantissa % 2 = 0
  (match compareScaled d.digits d.exponent low (b.exponent - 2) with
    | .gt => true
    | .eq => inclusive
    | .lt => false) &&
  (match compareScaled d.digits d.exponent high (b.exponent - 2) with
    | .lt => true
    | .eq => inclusive
    | .gt => false)

/-- The whole multiples of `10 ^ k` in a magnitude. -/
def Binary.floorAt (b : Binary) (k : Int) : Nat :=
  (b.mantissa * Nat.pow 2 b.exponent.toNat * Nat.pow 10 (-k).toNat) /
    (Nat.pow 2 (-b.exponent).toNat * Nat.pow 10 k.toNat)

/-- The nearer of a magnitude's two neighbours among the multiples of `10 ^ k`, if one of them is
read back as it. -/
def Binary.candidate? (b : Binary) (k : Int) : Option Scaled :=
  let below : Scaled := ⟨b.floorAt k, k⟩
  let above : Scaled := ⟨b.floorAt k + 1, k⟩
  match b.covers below, b.covers above with
  | true, true =>
    match compareScaled (2 * b.floorAt k + 1) k (2 * b.mantissa) b.exponent with
    | .gt => some below
    | _ => some above
  | true, false => some below
  | false, true => some above
  | false, false => none

/-- The least `k` with the magnitude below `10 ^ k`, searched upwards from a bound below it. -/
def Binary.scale (b : Binary) : Int :=
  let estimate : Int := (((Nat.log2 b.mantissa : Int) + b.exponent) * 30103) / 100000 - 1
  match (List.range 4).find? (fun (i : Nat) => b.floorAt (estimate + i) = 0) with
  | some i => estimate + i
  | none => estimate + 4

/-- The shortest decimal of a magnitude, the nearest of the shortest; the exact value if none of
seventeen digits would do. -/
def Binary.shortest (b : Binary) : Scaled :=
  if b.mantissa = 0 then ⟨0, 0⟩
  else
    match (List.range 17).findSome? (fun (n : Nat) => b.candidate? (b.scale - n - 1)) with
    | some d => d
    | none =>
      if 0 ≤ b.exponent then ⟨b.mantissa * Nat.pow 2 b.exponent.toNat, 0⟩
      else ⟨b.mantissa * Nat.pow 5 (-b.exponent).toNat, b.exponent⟩

/-- Digits without the zeros at their end. -/
def dropZeros (cs : List Char) : List Char :=
  (cs.reverse.dropWhile (· = '0')).reverse

/-- A decimal without an exponent, with no more digits after the point than it needs. -/
def Scaled.render (d : Scaled) : List Char :=
  let cs := Text.decimal d.digits
  if 0 ≤ d.exponent then cs ++ List.replicate d.exponent.toNat '0'
  else
    let places := (-d.exponent).toNat
    let padded := List.replicate (places + 1 - cs.length) '0' ++ cs
    let whole := padded.take (padded.length - places)
    match dropZeros (padded.drop (padded.length - places)) with
    | [] => whole
    | fraction => whole ++ '.' :: fraction

/-- A double as text: `NaN`, `inf`, or the shortest decimal, with a sign if it is negative. -/
def Double.render : Double → List Char
  | .notNumber => "NaN".toList
  | .infinite negative => (if negative then ['-'] else []) ++ "inf".toList
  | .finite negative b =>
    (if negative then ['-'] else []) ++
      (if b.mantissa = 0 then ['0'] else b.shortest.render)

end ReplicaUpkeep.Decimal
