import ReplicaUpkeep.Decimal.Double
import ReplicaUpkeep.Json.Basic

/-!
# Shapes of JSON values

How a value of a known shape is taken from a JSON tree.  A record is an object whose members are
found by key, or an array of its fields in the order of declaration.  In an object, members with
other keys are ignored whatever they hold, and a declared key may not occur twice; in an array,
fields may be left out at the end only.  A name out of a fixed list is a string, or an object with
the name as its only key and `null` as the value.
-/

namespace ReplicaUpkeep.Json

/-- A text. -/
def toText? : Json → Option String
  | .text t => t
  | _ => none

/-- A truth value. -/
def toBoolean? : Json → Option Bool
  | .boolean b => some b
  | _ => none

/-- An unsigned integer below a limit; only a token of digits alone is one. -/
def toNatBelow? (limit : Nat) : Json → Option Nat
  | .number (.natural n) => if n < limit then some n else none
  | _ => none

/-- An unsigned integer of 64 bits. -/
def toWord? (v : Json) : Option UInt64 :=
  (v.toNatBelow? Text.wordLimit).map UInt64.ofNat

/-- An unsigned integer of 32 bits. -/
def toHalfWord? (v : Json) : Option UInt32 :=
  (v.toNatBelow? Text.halfWordLimit).map UInt32.ofNat

/-- Any number, as the double nearest to it. -/
def toFloat? : Json → Option Float
  | .number (.natural n) => some (Decimal.nearest false n 0)
  | .number (.decimal negative mantissa exponent) =>
    some (Decimal.nearest negative mantissa exponent)
  | _ => none

/-- An array with every element of one shape. -/
def toList? {α : Type} (item? : Json → Option α) : Json → Option (List α)
  | .array items => items.mapM item?
  | _ => none

/-- A value or `null`. -/
def toOption? {α : Type} (item? : Json → Option α) : Json → Option (Option α)
  | .null => some none
  | v => (item? v).map some

/-- A name, or an object with the name as its only key and `null` under it. -/
def toName? : Json → Option String
  | .text t => t
  | .object [(k, .null)] => k
  | _ => none

/-- The member under a key, the first one if the key is repeated. -/
def member? (key : String) : List (Option String × Json) → Option Json
  | [] => none
  | (k, v) :: rest => if k = some key then some v else member? key rest

/-- How often a key occurs. -/
def keyCount (key : String) (members : List (Option String × Json)) : Nat :=
  (members.filter (fun m => m.1 = some key)).length

/-- The fields of a record with the given keys, in their order; an absent field is `none`. -/
def fields? (keys : List String) : Json → Option (List (Option Json))
  | .object members =>
    if members.all (fun m => m.1.isSome) ∧ keys.all (fun k => keyCount k members ≤ 1) then
      some (keys.map (fun k => member? k members))
    else none
  | .array items =>
    if items.length ≤ keys.length then
      some (items.map some ++ List.replicate (keys.length - items.length) none)
    else none
  | _ => none

/-- The fields of a record that has to be an object. -/
def objectFields? (keys : List String) : Json → Option (List (Option Json))
  | .array _ => none
  | v => v.fields? keys

/-- A field that has to be there. -/
def required {α : Type} (item? : Json → Option α) : Option Json → Option α
  | none => none
  | some v => item? v

/-- A field that may be missing, but not `null`. -/
def withDefault {α : Type} (default : α) (item? : Json → Option α) : Option Json → Option α
  | none => some default
  | some v => item? v

/-- A field that may be missing or `null`. -/
def optional {α : Type} (item? : Json → Option α) : Option Json → Option (Option α)
  | none => some none
  | some v => v.toOption? item?

end ReplicaUpkeep.Json
