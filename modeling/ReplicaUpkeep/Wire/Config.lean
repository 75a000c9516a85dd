import ReplicaUpkeep.Config
import ReplicaUpkeep.Json.Reader
import ReplicaUpkeep.Json.Shape

/-!
# The JSON form of a configuration

Durations are written as texts and read by the same rules as everywhere.  Every setting may be
missing and then has its default.  Reading does not check that a manager can run with the result.
-/

namespace ReplicaUpkeep

/-- The text of a duration. -/
def Duration.ofJson? (v : Json) : Option Duration :=
  v.toText?.bind (fun s => (parse s).toOption)

namespace Config

/-- A configuration as an object. -/
def toJson (c : Config) : Json :=
  .record [
    ("interval", .str c.interval.render),
    ("max_repairs_per_cycle", .word c.maxRepairs),
    ("inflight_timeout", .str c.inflightTimeout.render),
    ("directive_channel_capacity", .word c.capacity),
    ("log_level", .str c.logLevel)]

/-- A configuration, settings that are missing having their defaults. -/
def ofJson? (v : Json) : Option Config :=
  match v.fields? ["interval", "max_repairs_per_cycle", "inflight_timeout",
    "directive_channel_capacity", "log_level"] with
  | some [interval, maxRepairs, inflightTimeout, capacity, logLevel] => do
    let interval ← Json.withDefault default.interval Duration.ofJson? interval
    let maxRepairs ← Json.withDefault default.maxRepairs Json.toWord? maxRepairs
    let inflightTimeout ←
      Json.withDefault default.inflightTimeout Duration.ofJson? inflightTimeout
    let capacity ← Json.withDefault default.capacity Json.toWord? capacity
    let logLevel ← Json.withDefault default.logLevel Json.toText? logLevel
    some { interval, maxRepairs, inflightTimeout, capacity, logLevel }
  | _ => none

/-- The configuration of a text, if a manager can run with it. -/
def ofText (s : String) : Except Error Config :=
  match (Json.parse? s).bind ofJson? with
  | some c => c.validate
  | none => .error (.json "not a configuration")

end Config

end ReplicaUpkeep
