import ReplicaUpkeep.Text.Numeral
import ReplicaUpkeep.Timestamp.Basic

/-!
# Dates and times in documents

A document may give a day, a time of day, or both, and then an offset from UTC as well.  Every field
has a fixed number of digits; the second may be left out, and so may its fraction, of which the first
nine digits count.  The written form has the parts that were given, a `T` between day and time, and no
zeros at the end of a fraction but for its first digit.  A moment is kept as it was given: no offset is
applied.
-/

namespace ReplicaUpkeep.Toml

/-- A day of a year from 0 to 9999. -/
structure Day where
  year : Nat
  month : Nat
  day : Nat
  deriving DecidableEq, Repr

/-- A second of a minute, 60 for a leap second, perhaps with a fraction in nanoseconds. -/
structure Second where
  whole : Nat
  nano : Option Nat
  deriving DecidableEq, Repr

/-- A time of day, to the minute or finer. -/
structure Clock where
  hour : Nat
  minute : Nat
  second : Option Second
  deriving DecidableEq, Repr

/-- How far a clock is from UTC. -/
inductive Zone where
  | utc
  | offset (minutes : Int)
  deriving DecidableEq, Repr

/-- A date, a time, or both. -/
inductive Moment where
  | day (d : Day)
  | clock (c : Clock)
  | both (d : Day) (c : Clock) (zone : Option Zone)
  deriving DecidableEq, Repr

/-! ## Reading -/

/-- The number written by all the digits in front, which have to be of a given count. -/
def field? (width : Nat) (cs : List Char) : Option (Nat × List Char) :=
  if (cs.takeWhile Char.isDigit).length = width then
    some (Text.digitsValue (cs.takeWhile Char.isDigit), cs.dropWhile Char.isDigit)
  else none

/-- A field behind a mark in front. -/
def fieldAfter? (mark : Char) (width : Nat) : List Char → Option (Nat × List Char)
  | [] => none
  | c :: rest => if c = mark then field? width rest else none

/-- A day in front. -/
def Day.inFront? (cs : List Char) : Option (Day × List Char) := do
  let (year, cs) ← field? 4 cs
  let (month, cs) ← fieldAfter? '-' 2 cs
  let (day, cs) ← fieldAfter? '-' 2 cs
  if 1 ≤ day ∧ day ≤ Civil.daysInMonth year month then some ({ year, month, day }, cs) else none

/-- The nanoseconds of a fraction in front, if there is one. -/
def nanos? : List Char → Option (Option Nat × List Char)
  | '.' :: rest =>
    match rest.takeWhile Char.isDigit with
    | [] => none
    | ds =>
      some (some (Text.digitsValue (ds.take 9) * Nat.pow 10 (9 - ds.length)),
        rest.dropWhile Char.isDigit)
  | cs => some (none, cs)

/-- A second with its mark in front, if there is one. -/
def Second.inFront? : List Char → Option (Option Second × List Char)
  | ':' :: rest => do
    let (whole, cs) ← field? 2 rest
    let (nano, cs) ← nanos? cs
    if whole ≤ 60 then some (some { whole, nano }, cs) else none
  | cs => some (none, cs)

/-- A time of day in front. -/
def Clock.inFront? (cs : List Char) : Option (Clock × List Char) := do
  let (hour, cs) ← field? 2 cs
  let (minute, cs) ← fieldAfter? ':' 2 cs
  let (second, cs) ← Second.inFront? cs
  if hour < 24 ∧ minute < 60 then some ({ hour, minute, second }, cs) else none

/-- The minutes of an offset after its sign, up to the end of the text. -/
def offsetMinutes? (cs : List Char) : Option Nat := do
  let (hour, cs) ← field? 2 cs
  let (minute, cs) ← fieldAfter? ':' 2 cs
  if hour < 24 ∧ minute < 60 ∧ cs = [] then some (hour * 60 + minute) else none

/-- The offset that a text gives, if it is not empty. -/
def zone? : List Char → Option (Option Zone)
  | [] => some none
  | ['Z'] => some (some .utc)
  | ['z'] => some (some .utc)
  | '+' :: rest => (offsetMinutes? rest).map (fun m => some (.offset m))
  | '-' :: rest => (offsetMinutes? rest).map (fun m => some (.offset (-(m : Int))))
  | _ => none

/-- May the character stand between a day and a time? -/
def isDayEnd (c : Char) : Bool :=
  c = 'T' || c = 't' || c = ' '

/-- The date or time that a whole text gives. -/
def Moment.parse? (cs : List Char) : Option Moment :=
  match Day.inFront? cs with
  | some (d, []) => some (.day d)
  | some (d, mark :: rest) =>
    if isDayEnd mark then do
      let (c, cs) ← Clock.inFront? rest
      let zone ← zone? cs
      some (.both d c zone)
    else none
  | none =>
    match Clock.inFront? cs with
    | some (c, []) => some (.clock c)
    | _ => none

/-! ## Writing -/

/-- A day as text. -/
def Day.render (d : Day) : List Char :=
  Text.padded 4 d.year ++ '-' :: Text.padded 2 d.month ++ '-' :: Text.padded 2 d.day

/-- The fraction of a second as text: a point, the first digit, and the others up to the last that is
not zero. -/
def renderNanos (nano : Nat) : List Char :=
  match ((Text.padded 9 nano).reverse.dropWhile (· = '0')).reverse with
  | [] => ['.', '0']
  | digits => '.' :: digits

/-- A second as text, with the mark in front. -/
def Second.render (s : Second) : List Char :=
  ':' :: Text.padded 2 s.whole ++ s.nano.elim [] renderNanos

/-- A time of day as text. -/
def Clock.render (c : Clock) : List Char :=
  Text.padded 2 c.hour ++ ':' :: Text.padded 2 c.minute ++ c.second.elim [] Second.render

/-- An offset as text; none at all is written with a plus sign. -/
def Zone.render : Zone → List Char
  | .utc => ['Z']
  | .offset minutes =>
    (if minutes < 0 then '-' else '+') ::
      (Text.padded 2 (minutes.natAbs / 60) ++ ':' :: Text.padded 2 (minutes.natAbs % 60))

/-- A date or time as text. -/
def Moment.render : Moment → String
  | .day d => String.ofList d.render
  | .clock c => String.ofList c.render
  | .both d c zone =>
    String.ofList (d.render ++ 'T' :: c.render ++ (zone.elim [] Zone.render))

end ReplicaUpkeep.Toml
