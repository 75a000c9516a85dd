import ReplicaUpkeep.Timestamp.Basic

/-!
# Points in time by seconds

The point that lies a number of seconds after the beginning of 1970, leap seconds not counted.  Years
are counted from March here, so that a leap day ends its year.
-/

namespace ReplicaUpkeep.Timestamp

/-- The days from 1 March of the year 0 to 1 January 1970. -/
def daysBeforeUnix : Int := 719468

/-- The year, month and day that lie a number of days after 1 January 1970. -/
def dateOfDays (days : Int) : Int × Nat × Nat :=
  let shifted := days + daysBeforeUnix
  let cycle := shifted / 146097
  let inCycle := (shifted % 146097).toNat
  let year := (inCycle - inCycle / 1460 + inCycle / 36524 - inCycle / 146096) / 365
  let inYear := inCycle - (365 * year + year / 4 - year / 100)
  let fromMarch := (5 * inYear + 2) / 153
  let day := inYear - (153 * fromMarch + 2) / 5 + 1
  let month := if fromMarch < 10 then fromMarch + 3 else fromMarch - 9
  (cycle * 400 + year + (if month ≤ 2 then 1 else 0), month, day)

/-- The point that lies a number of seconds after the beginning of 1970, if it can be represented. -/
def ofUnix? (seconds : Int) (nano : Nat) : Option Timestamp :=
  let (year, month, day) := dateOfDays (seconds / 86400)
  let inDay := (seconds % 86400).toNat
  ofCivil? {
    year, month, day
    hour := inDay / 3600
    minute := inDay / 60 % 60
    second := inDay % 60
    nano }

end ReplicaUpkeep.Timestamp
