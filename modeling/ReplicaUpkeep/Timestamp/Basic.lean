import ReplicaUpkeep.Order

/-!
# Points in civil time

A point in time is kept as its date and time of day in UTC, in the proleptic Gregorian calendar,
with nanoseconds.  The second may be 60, for a leap second, in any minute; leap seconds are not
otherwise known here.  Points are compared field by field, and shifted by less than a day only.
-/

namespace ReplicaUpkeep

/-- A date and a time of day, not yet checked. -/
structure Civil where
  year : Int
  month : Nat
  day : Nat
  hour : Nat
  minute : Nat
  second : Nat
  nano : Nat
  deriving DecidableEq, Repr

namespace Civil

/-- Does the year have a 29 February? -/
def isLeapYear (year : Int) : Bool :=
  (year % 4 = 0 && year % 100 ≠ 0) || year % 400 = 0

/-- The number of days of a month; none for a number that names no month. -/
def daysInMonth (year : Int) (month : Nat) : Nat :=
  match month with
  | 1 | 3 | 5 | 7 | 8 | 10 | 12 => 31
  | 4 | 6 | 9 | 11 => 30
  | 2 => if isLeapYear year then 29 else 28
  | _ => 0

/-- The least year that can be represented. -/
def minYear : Int := -262143

/-- The greatest year that can be represented. -/
def maxYear : Int := 262142

/-- Is every field within its range? -/
def isValid (c : Civil) : Bool :=
  minYear ≤ c.year && c.year ≤ maxYear && 1 ≤ c.day && c.day ≤ daysInMonth c.year c.month &&
    c.hour < 24 && c.minute < 60 && c.second ≤ 60 && c.nano < 1000000000

/-- Year, month and day. -/
abbrev DateKey := OrderedPair Int (OrderedPair Nat Nat)

/-- Hour, minute, second and nanosecond. -/
abbrev ClockKey := OrderedPair Nat (OrderedPair Nat (OrderedPair Nat Nat))

/-- The fields in the order in which points are compared. -/
def key (c : Civil) : OrderedPair DateKey ClockKey :=
  ⟨⟨c.year, ⟨c.month, c.day⟩⟩, ⟨c.hour, ⟨c.minute, ⟨c.second, c.nano⟩⟩⟩⟩

theorem key_injective {a b : Civil} (h : a.key = b.key) : a = b := by
  cases a
  cases b
  simpa [key, and_assoc] using h

/-- The same time on the next day. -/
def nextDay (c : Civil) : Civil :=
  if c.day < daysInMonth c.year c.month then { c with day := c.day + 1 }
  else if c.month < 12 then { c with month := c.month + 1, day := 1 }
  else { c with year := c.year + 1, month := 1, day := 1 }

/-- The same time on the day before. -/
def previousDay (c : Civil) : Civil :=
  if 1 < c.day then { c with day := c.day - 1 }
  else if 1 < c.month then
    { c with month := c.month - 1, day := daysInMonth c.year (c.month - 1) }
  else { c with year := c.year - 1, month := 12, day := 31 }

/-- The time of day in whole minutes set to a number of minutes of one day. -/
def atMinute (c : Civil) (minutes : Nat) : Civil :=
  { c with hour := minutes / 60, minute := minutes % 60 }

/-- The time that lies a number of minutes earlier, less than a day before or after. -/
def earlier (c : Civil) (minutes : Int) : Civil :=
  let m : Int := c.hour * 60 + c.minute - minutes
  if m < 0 then c.previousDay.atMinute (m + 1440).toNat
  else if 1440 ≤ m then c.nextDay.atMinute (m - 1440).toNat
  else c.atMinute m.toNat

end Civil

/-- A point in time, in UTC. -/
structure Timestamp where
  civil : Civil
  valid : civil.isValid = true
  deriving DecidableEq, Repr

namespace Timestamp

/-- The point of a date and time, if every field is within its range. -/
def ofCivil? (c : Civil) : Option Timestamp :=
  if h : c.isValid = true then some ⟨c, h⟩ else none

instance : LE Timestamp := ⟨fun a b => a.civil.key ≤ b.civil.key⟩

instance : LT Timestamp := ⟨fun a b => a.civil.key < b.civil.key⟩

theorem le_def (a b : Timestamp) : a ≤ b ↔ a.civil.key ≤ b.civil.key := Iff.rfl

instance : DecidableLE Timestamp := fun a b => decidable_of_iff _ (le_def a b).symm

instance : Std.IsLinearOrder Timestamp :=
  Order.isLinearOrder_of_injective (fun t => t.civil.key) (fun _ _ => Iff.rfl) (by
    intro a b h
    cases a
    cases b
    simpa using Civil.key_injective h)

end Timestamp

end ReplicaUpkeep
