import ReplicaUpkeep.Text.Blank
import ReplicaUpkeep.Text.Numeral
import ReplicaUpkeep.Timestamp.Basic

/-!
# The text of a point in time

Reading and writing dates and times.  The reader takes `year-month-day`, one of `T`, `t` or a
space, `hour:minute:second` with an optional fraction, and an offset that has to be there: `Z`,
`UTC`, or a sign with hours and minutes.  Blanks may stand before each part, fields may be short,
and digits of the fraction after the ninth are cut.  The writer gives UTC with `Z` and the least of
0, 3, 6 and 9 digits of a second that is exact.
-/

namespace ReplicaUpkeep.Timestamp

/-- A number of one digit up to a width in front, blanks before it dropped. -/
def number? (width : Nat) (cs : List Char) : Option (Nat × List Char) :=
  let cs := Text.trimStart cs
  match (cs.take width).takeWhile Char.isDigit with
  | [] => none
  | ds => some (Text.digitsValue ds, cs.drop ds.length)

/-- A year in front: four digits at most without a sign, any number of them after one. -/
def year? (cs : List Char) : Option (Int × List Char) :=
  match Text.trimStart cs with
  | '-' :: rest => (digitsInFront? rest).map (fun r => (-(r.1 : Int), r.2))
  | '+' :: rest => (digitsInFront? rest).map (fun r => ((r.1 : Int), r.2))
  | rest => (number? 4 rest).map (fun r => ((r.1 : Int), r.2))
where
  /-- All the digits in front, as a number. -/
  digitsInFront? (cs : List Char) : Option (Nat × List Char) :=
    match cs.takeWhile Char.isDigit with
    | [] => none
    | ds => some (Text.digitsValue ds, cs.dropWhile Char.isDigit)

/-- A given character in front, blanks before it dropped. -/
def mark? (c : Char) (cs : List Char) : Option (List Char) :=
  match Text.trimStart cs with
  | d :: rest => if d = c then some rest else none
  | [] => none

/-- The nanoseconds of an optional fraction in front. -/
def fraction? : List Char → Option (Nat × List Char)
  | '.' :: rest =>
    match (rest.take 9).takeWhile Char.isDigit with
    | [] => none
    | ds => some (Text.digitsValue ds * Nat.pow 10 (9 - ds.length), rest.dropWhile Char.isDigit)
  | cs => some (0, cs)

/-- The minutes of an offset after its sign, less than a day. -/
def offsetMinutes? : List Char → Option (Nat × List Char)
  | h₁ :: h₂ :: rest =>
    match rest.dropWhile (fun c => c = ':' || Text.isBlank c) with
    | m₁ :: m₂ :: rest =>
      match Text.numeral? [h₁, h₂], Text.numeral? [m₁, m₂] with
      | some h, some m => if m < 60 ∧ h < 24 then some (h * 60 + m, rest) else none
      | _, _ => none
    | _ => none
  | _ => none

/-- The offset from UTC in minutes, blanks before it dropped. -/
def offset? (cs : List Char) : Option (Int × List Char) :=
  match Text.trimStart cs with
  | u :: t :: c :: rest =>
    if (u = 'u' ∨ u = 'U') ∧ (t = 't' ∨ t = 'T') ∧ (c = 'c' ∨ c = 'C') then some (0, rest)
    else signed? (u :: t :: c :: rest)
  | cs => signed? cs
where
  /-- An offset other than the word `UTC`. -/
  signed? : List Char → Option (Int × List Char)
    | 'Z' :: rest => some (0, rest)
    | 'z' :: rest => some (0, rest)
    | '+' :: rest => (offsetMinutes? rest).map (fun r => ((r.1 : Int), r.2))
    | '-' :: rest => (offsetMinutes? rest).map (fun r => (-(r.1 : Int), r.2))
    | '−' :: rest => (offsetMinutes? rest).map (fun r => (-(r.1 : Int), r.2))
    | _ => none

/-- The date and time of a whole text as they stand there, with the offset in minutes. -/
def local? (cs : List Char) : Option (Civil × Int) := do
  let (year, cs) ← year? cs
  let cs ← mark? '-' cs
  let (month, cs) ← number? 2 cs
  let cs ← mark? '-' cs
  let (day, cs) ← number? 2 cs
  let cs ← match cs with
    | 'T' :: rest => some rest
    | 't' :: rest => some rest
    | ' ' :: rest => some rest
    | _ => none
  let (hour, cs) ← number? 2 cs
  let cs ← mark? ':' cs
  let (minute, cs) ← number? 2 cs
  let cs ← mark? ':' cs
  let (second, cs) ← number? 2 cs
  let (nano, cs) ← fraction? cs
  let (offset, cs) ← offset? cs
  if Text.trimStart cs = [] then
    some ({ year, month, day, hour, minute, second, nano }, offset)
  else none

/-- The point in time that a text names. -/
def parse? (s : String) : Option Timestamp := do
  let (c, offset) ← local? s.toList
  if c.isValid then ofCivil? (c.earlier offset) else none

/-- A year: four digits from 0 to 9999, a sign and at least four digits outside. -/
def renderYear (year : Int) : List Char :=
  if 0 ≤ year ∧ year ≤ 9999 then Text.padded 4 year.toNat
  else (if year < 0 then '-' else '+') :: Text.padded 4 year.natAbs

/-- The fraction of a second with the least of 0, 3, 6 and 9 digits that is exact. -/
def renderFraction (nano : Nat) : List Char :=
  if nano = 0 then []
  else if nano % 1000000 = 0 then '.' :: Text.padded 3 (nano / 1000000)
  else if nano % 1000 = 0 then '.' :: Text.padded 6 (nano / 1000)
  else '.' :: Text.padded 9 nano

/-- The text of a point in time, in UTC. -/
def render (t : Timestamp) : String :=
  let c := t.civil
  String.ofList (renderYear c.year ++ '-' :: Text.padded 2 c.month ++ '-' :: Text.padded 2 c.day ++
    'T' :: Text.padded 2 c.hour ++ ':' :: Text.padded 2 c.minute ++ ':' :: Text.padded 2 c.second ++
    renderFraction c.nano ++ ['Z'])

end ReplicaUpkeep.Timestamp
