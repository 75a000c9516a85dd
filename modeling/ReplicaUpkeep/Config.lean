import ReplicaUpkeep.Error

/-!
# Configuration

What a manager is run with, and the settings that it cannot run with.  Checks are made in a fixed
order and the first that fails is reported.  A timeout of zero is allowed: repairs in flight then
never count.
-/

namespace ReplicaUpkeep

/-- The duration named by a text; whatever is wrong with the text is a fault of the configuration. -/
def Duration.ofText (s : String) : Except Error Duration :=
  match parse s with
  | .ok d => .ok d
  | .error fault => .error (.invalidConfig (.duration fault))

/-- What a manager is run with. -/
structure Config where
  /-- The time between full rounds. -/
  interval : Duration
  /-- How many waiting containers are repaired in one round. -/
  maxRepairs : UInt64
  /-- For how long a repair that was sent counts as in flight. -/
  inflightTimeout : Duration
  /-- How many directives may wait for the dispatcher. -/
  capacity : UInt64
  logLevel : String
  deriving DecidableEq, Repr

namespace Config

/-- What is used where nothing else is said. -/
def default : Config where
  interval := .ofSeconds 30
  maxRepairs := 100
  inflightTimeout := .ofSeconds 600
  capacity := 1024
  logLevel := "info"

instance : Inhabited Config := ⟨default⟩

/-- The first setting that a manager cannot run with. -/
def fault? (c : Config) : Option ConfigFault :=
  if c.interval.isZero then some .zeroInterval
  else if c.maxRepairs = 0 then some .zeroRepairs
  else if c.capacity = 0 then some .zeroCapacity
  else none

/-- The configuration itself, if a manager can run with it. -/
def validate (c : Config) : Except Error Config :=
  match c.fault? with
  | some fault => .error (.invalidConfig fault)
  | none => .ok c

end Config

end ReplicaUpkeep
