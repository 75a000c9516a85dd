import ReplicaUpkeep.Text.Numeral

/-!
# JSON values

The tree of a JSON text.  A number keeps the shape of its token, because an unsigned integer and a
decimal of the same value are told apart by readers.  A string may hold an escape that is half of a
surrogate pair without its partner; such a string is well formed and yet names no text, and is kept
as `none`.  Members of an object stay in the order of the text, repetitions included.
-/

namespace ReplicaUpkeep

/-- A number token: digits alone, or anything with a sign, a fraction or an exponent. -/
inductive Json.Number where
  /-- A token of digits alone. -/
  | natural (n : Nat)
  /-- Any other token: a sign, and the value `mantissa * 10 ^ exponent`. -/
  | decimal (negative : Bool) (mantissa : Nat) (exponent : Int)
  deriving DecidableEq, Repr

/-- A JSON value. -/
inductive Json where
  | null
  | boolean (b : Bool)
  | number (n : Json.Number)
  | text (t : Option String)
  | array (items : List Json)
  | object (members : List (Option String × Json))
  deriving Repr, Inhabited

namespace Json

/-- The value of a text. -/
def str (s : String) : Json :=
  .text (some s)

/-- The value of a natural number. -/
def nat (n : Nat) : Json :=
  .number (.natural n)

/-- The value of an unsigned word. -/
def word (n : UInt64) : Json :=
  nat n.toNat

/-- The array of a list of texts. -/
def texts (l : List String) : Json :=
  .array (l.map str)

/-- The object with the given members, in this order. -/
def record (members : List (String × Json)) : Json :=
  .object (members.map (fun m => (some m.1, m.2)))

/-- The value of a text, or `null` when there is none. -/
def optionalText : Option String → Json
  | none => .null
  | some s => str s

end Json

end ReplicaUpkeep
