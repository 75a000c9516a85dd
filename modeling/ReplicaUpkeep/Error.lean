import ReplicaUpkeep.Container
import ReplicaUpkeep.Duration
import ReplicaUpkeep.Replica

/-!
# Errors

Everything that an operation can refuse, as its cause.  The wording is derived from the cause in one
place; no decision is ever taken on the wording.  Three causes say that what was named does not
exist, and two that the same request may succeed later.
-/

namespace ReplicaUpkeep

/-- What a report or an update contradicts. -/
inductive ReportFault where
  /-- A container's sequence would move backwards. -/
  | containerRegressed (old new : UInt64)
  /-- A replica's sequence would move backwards. -/
  | replicaRegressed (node : NodeId) (old new : UInt64)
  /-- A replica would change its lineage. -/
  | originChanged (node : NodeId) (old new : NodeId)
  /-- A fault given in words. -/
  | stated (text : String)
  deriving DecidableEq, Repr

namespace ReportFault

/-- The text of an unsigned word. -/
def word (n : UInt64) : String :=
  String.ofList (Text.decimal n.toNat)

/-- The wording of a fault. -/
def message : ReportFault → String
  | .containerRegressed old new =>
    "container sequence regressed from " ++ word old ++ " to " ++ word new
  | .replicaRegressed node old new =>
    "sequence on " ++ node ++ " regressed from " ++ word old ++ " to " ++ word new
  | .originChanged node old new =>
    "origin on " ++ node ++ " changed from " ++ old ++ " to " ++ new
  | .stated text => text

end ReportFault

/-- What makes a configuration unusable. -/
inductive ConfigFault where
  | zeroInterval
  | zeroRepairs
  | zeroCapacity
  | duration (fault : Duration.Fault)
  /-- A fault given in words. -/
  | stated (text : String)
  deriving DecidableEq, Repr

/-- The wording of a fault. -/
def ConfigFault.message : ConfigFault → String
  | .zeroInterval => "interval must be non-zero"
  | .zeroRepairs => "max_repairs_per_cycle must be at least 1"
  | .zeroCapacity => "directive_channel_capacity must be at least 1"
  | .duration fault => fault.message
  | .stated text => text

/-- Why an operation was refused. -/
inductive Error where
  /-- A file cannot be read. -/
  | io (text : String)
  /-- A text is not JSON of the expected shape. -/
  | json (text : String)
  | containerNotFound (id : ContainerId)
  | replicaNotFound (id : ContainerId) (node : NodeId)
  | nodeNotFound (node : NodeId)
  | nodeExists (node : NodeId)
  | containerExists (id : ContainerId)
  | invalidReport (id : ContainerId) (fault : ReportFault)
  | registryUnavailable (text : String)
  | queueClosed
  | invalidConfig (fault : ConfigFault)
  /-- The sources of a configuration cannot be put together. -/
  | configLoad (text : String)
  | internal (text : String)
  | other (text : String)
  deriving DecidableEq, Repr

namespace Error

/-- The wording of an error. -/
def message : Error → String
  | .io text => "I/O error: " ++ text
  | .json text => "JSON error: " ++ text
  | .containerNotFound id => "Container not found: " ++ id.render
  | .replicaNotFound id node => "Replica of " ++ id.render ++ " on " ++ node ++ " not found"
  | .nodeNotFound node => "Node not found: " ++ node
  | .nodeExists node => "Node already exists: " ++ node
  | .containerExists id => "Container already exists: " ++ id.render
  | .invalidReport id fault => "Invalid report for " ++ id.render ++ ": " ++ fault.message
  | .registryUnavailable text => "Node registry unavailable: " ++ text
  | .queueClosed => "Reconciliation queue is closed"
  | .invalidConfig fault => "Invalid configuration: " ++ fault.message
  | .configLoad text => "Config loader error: " ++ text
  | .internal text => "Internal error: " ++ text
  | .other text => text

/-- May the same request succeed later? -/
def isRetryable : Error → Bool
  | .registryUnavailable _ | .internal _ => true
  | _ => false

/-- Does the error say that what was named does not exist? -/
def isNotFound : Error → Bool
  | .containerNotFound _ | .replicaNotFound _ _ | .nodeNotFound _ => true
  | _ => false

end Error

end ReplicaUpkeep
