import ReplicaUpkeep.Text.Blank
import ReplicaUpkeep.Text.Numeral

/-!
# Durations

A length of time in whole seconds and nanoseconds, and its short text: a number with one of the
units `ms`, `s`, `m`, `h` and `d`.  The reader takes one number and one unit with nothing between
them; the writer uses the coarsest unit that is exact to the millisecond.  Anything finer than a
millisecond is not written.
-/

namespace ReplicaUpkeep

/-- A length of time: whole seconds, and nanoseconds below one second. -/
structure Duration where
  seconds : UInt64
  nanos : Nat
  nanos_lt : nanos < 1000000000
  deriving DecidableEq, Repr

namespace Duration

/-- What is wrong with the text of a duration. -/
inductive Fault where
  /-- Nothing but blanks. -/
  | empty
  /-- No number below `2 ^ 64` in front of the unit. -/
  | malformed (text : String)
  /-- A number in front of something that is not a unit. -/
  | unknownUnit (unit : Char)
  /-- More seconds than a word holds. -/
  | tooLarge (text : String)
  deriving DecidableEq, Repr

/-- The wording of a fault. -/
def Fault.message : Fault → String
  | .empty => "empty duration"
  | .malformed text => "invalid duration: " ++ text
  | .unknownUnit unit => "unknown duration unit: " ++ String.singleton unit
  | .tooLarge text => "duration too large: " ++ text

/-- A whole number of seconds. -/
def ofSeconds (n : UInt64) : Duration where
  seconds := n
  nanos := 0
  nanos_lt := by decide

/-- A whole number of milliseconds. -/
def ofMillis (n : UInt64) : Duration where
  seconds := n / 1000
  nanos := (n.toNat % 1000) * 1000000
  nanos_lt := by omega

/-- Seconds and nanoseconds, whole seconds among the nanoseconds carried over. -/
def ofParts? (seconds : UInt64) (nanos : UInt32) : Option Duration :=
  let total := seconds.toNat + nanos.toNat / 1000000000
  if total < Text.wordLimit then
    some {
      seconds := UInt64.ofNat total
      nanos := nanos.toNat % 1000000000
      nanos_lt := Nat.mod_lt _ (by decide) }
  else none

/-- The duration of no time. -/
def zero : Duration := ofSeconds 0

/-- Is the duration of no length at all? -/
def isZero (d : Duration) : Bool :=
  d.seconds = 0 && d.nanos = 0

/-- The whole milliseconds of a duration. -/
def millis (d : Duration) : Nat :=
  d.seconds.toNat * 1000 + d.nanos / 1000000

/-- The nanoseconds of a duration. -/
def totalNanos (d : Duration) : Nat :=
  d.seconds.toNat * 1000000000 + d.nanos

/-- The seconds in a unit of one letter. -/
def unitSeconds? : Char → Option Nat
  | 's' => some 1
  | 'm' => some 60
  | 'h' => some 3600
  | 'd' => some 86400
  | _ => none

/-- The text before a final `ms`. -/
def beforeMillis? (cs : List Char) : Option (List Char) :=
  match cs.reverse with
  | 's' :: 'm' :: rest => some rest.reverse
  | _ => none

/-- A number with a unit of one letter, the text without blanks at its ends. -/
def parseSeconds (cs : List Char) (unit : Char) : Except Fault Duration :=
  match Text.signedNumeral? Text.wordLimit cs.dropLast with
  | none => .error (.malformed (String.ofList cs))
  | some n =>
    match unitSeconds? unit with
    | none => .error (.unknownUnit unit)
    | some scale =>
      if n * scale < Text.wordLimit then .ok (ofSeconds (UInt64.ofNat (n * scale)))
      else .error (.tooLarge (String.ofList cs))

/-- The duration named by a text, blanks at the ends of the text dropped. -/
def parse (s : String) : Except Fault Duration :=
  let cs := Text.trim s.toList
  match cs.getLast? with
  | none => .error .empty
  | some unit =>
    match beforeMillis? cs with
    | some number =>
      match Text.signedNumeral? Text.wordLimit number with
      | some n => .ok (ofMillis (UInt64.ofNat n))
      | none => .error (.malformed (String.ofList cs))
    | none => parseSeconds cs unit

/-- A number with its unit. -/
def withUnit (n : Nat) (unit : String) : String :=
  String.ofList (Text.decimal n) ++ unit

/-- The text of a duration in the coarsest unit that is exact to the millisecond. -/
def render (d : Duration) : String :=
  let seconds := d.seconds.toNat
  if d.millis % 1000 ≠ 0 then withUnit d.millis "ms"
  else if seconds ≠ 0 ∧ seconds % 86400 = 0 then withUnit (seconds / 86400) "d"
  else if seconds ≠ 0 ∧ seconds % 3600 = 0 then withUnit (seconds / 3600) "h"
  else if seconds ≠ 0 ∧ seconds % 60 = 0 then withUnit (seconds / 60) "m"
  else withUnit seconds "s"

end Duration

end ReplicaUpkeep
