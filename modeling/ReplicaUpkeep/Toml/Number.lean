import ReplicaUpkeep.Toml.Basic

/-!
# Numbers and truth values in documents

A word without quotes is a truth value, an integer or a double.  Integers fit 64 bits with a sign and
may be given in a radix of two, eight or sixteen; digits may have single underscores between them.  A
double is read as the nearest one and must not be too large for any.
-/

namespace ReplicaUpkeep.Toml

/-- Digits with single underscores between them, as the digits alone. -/
def plainDigits? (isDigit : Char → Bool) : List Char → Option (List Char)
  | [] => none
  | [c] => if isDigit c then some [c] else none
  | c :: '_' :: rest => if isDigit c then (plainDigits? isDigit rest).map (c :: ·) else none
  | c :: rest => if isDigit c then (plainDigits? isDigit rest).map (c :: ·) else none

/-- A number with its sign, if it fits a word of 64 bits with a sign. -/
def integerOf? (negative : Bool) (n : Nat) : Option Toml :=
  if n < Text.signedLimit then some (.integer (if negative then -n else n))
  else if negative ∧ n = Text.signedLimit then some (.integer (-n))
  else none

/-- Decimal digits without a needless zero in front. -/
def wholeDigits? (cs : List Char) : Option (List Char) :=
  (plainDigits? Char.isDigit cs).filter (fun ds => decide (ds.length = 1 ∨ ds.head? ≠ some '0'))

/-- The exponent of a number after its mark. -/
def exponent? (cs : List Char) : Option Int :=
  match cs with
  | '-' :: rest => (plainDigits? Char.isDigit rest).map (fun ds => -(Text.digitsValue ds : Int))
  | '+' :: rest => (plainDigits? Char.isDigit rest).map (fun ds => (Text.digitsValue ds : Int))
  | rest => (plainDigits? Char.isDigit rest).map (fun ds => (Text.digitsValue ds : Int))

/-- A double that is not infinite. -/
def realOf? (negative : Bool) (mantissa : Nat) (exponent : Int) : Option Toml :=
  match Decimal.Double.ofFloat (Decimal.nearest negative mantissa exponent) with
  | .finite negative b => some (.real (.finite negative b))
  | _ => none

/-- A number in decimal after its sign: an integer, or a double with a fraction, an exponent or
both. -/
def unsigned? (negative : Bool) (cs : List Char) : Option Toml := do
  let isMark := fun (c : Char) => c = 'e' || c = 'E'
  let mantissa := cs.takeWhile (fun c => !isMark c)
  let mark := cs.dropWhile (fun c => !isMark c)
  let whole ← wholeDigits? (mantissa.takeWhile (· ≠ '.'))
  let point := mantissa.dropWhile (· ≠ '.')
  if point = [] ∧ mark = [] then integerOf? negative (Text.digitsValue whole)
  else
    let places ← if point = [] then some [] else plainDigits? Char.isDigit point.tail
    let exponent ← if mark = [] then some 0 else exponent? mark.tail
    realOf? negative (Text.digitsValue (whole ++ places)) (exponent - places.length)

/-- A number in another radix. -/
def inRadix? (radix : Nat) (cs : List Char) : Option Toml :=
  (plainDigits? (fun c => (Text.radixValue? radix [c]).isSome) cs).bind (fun ds =>
    (Text.radixValue? radix ds).bind (integerOf? false))

/-- The value of a word without quotes that is neither a date nor a time. -/
def plainWord? (cs : List Char) : Option Toml :=
  match cs with
  | ['t', 'r', 'u', 'e'] => some (.boolean true)
  | ['f', 'a', 'l', 's', 'e'] => some (.boolean false)
  | ['i', 'n', 'f'] => some (.real (.infinite false))
  | ['+', 'i', 'n', 'f'] => some (.real (.infinite false))
  | ['-', 'i', 'n', 'f'] => some (.real (.infinite true))
  | ['n', 'a', 'n'] => some (.real .notNumber)
  | ['+', 'n', 'a', 'n'] => some (.real .notNumber)
  | ['-', 'n', 'a', 'n'] => some (.real .notNumber)
  | '0' :: 'x' :: rest => inRadix? 16 rest
  | '0' :: 'o' :: rest => inRadix? 8 rest
  | '0' :: 'b' :: rest => inRadix? 2 rest
  | '-' :: rest => unsigned? true rest
  | '+' :: rest => unsigned? false rest
  | cs => unsigned? false cs

end ReplicaUpkeep.Toml
