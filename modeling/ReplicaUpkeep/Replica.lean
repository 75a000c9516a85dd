import ReplicaUpkeep.Container

/-!
# Replicas

A replica is one node's copy of a container, with the last write that it holds and the lineage that
its bytes descend from.  This module also fixes the classes of replica states that every decision is
made of: good, writable, sealed, unfinalized.
-/

namespace ReplicaUpkeep

/-- The name of a node; names are compared by code point. -/
abbrev NodeId := String

/-- The stages of a replica. -/
inductive ReplicaState where
  | opened
  | closing
  | quasiClosed
  | closed
  | unhealthy
  | deleted
  deriving DecidableEq, Repr

namespace ReplicaState

/-- Every stage. -/
def all : List ReplicaState :=
  [.opened, .closing, .quasiClosed, .closed, .unhealthy, .deleted]

/-- The name of a stage in reports and images. -/
def name : ReplicaState → String
  | .opened => "OPEN"
  | .closing => "CLOSING"
  | .quasiClosed => "QUASI_CLOSED"
  | .closed => "CLOSED"
  | .unhealthy => "UNHEALTHY"
  | .deleted => "DELETED"

/-- The stage of a name. -/
def ofName? (s : String) : Option ReplicaState :=
  all.find? (fun r => r.name = s)

/-- Does a replica at this stage count as capacity? -/
def isGood : ReplicaState → Bool
  | .unhealthy | .deleted => false
  | _ => true

/-- May a replica at this stage still take writes? -/
def isWritable : ReplicaState → Bool
  | .opened | .closing => true
  | _ => false

/-- The stages that count as capacity. -/
def good : List ReplicaState := [.opened, .closing, .quasiClosed, .closed]

/-- The stages that may still take writes. -/
def writable : List ReplicaState := [.opened, .closing]

/-- The stages that stopped taking writes. -/
def sealed : List ReplicaState := [.quasiClosed, .closed]

/-- The stages that a closed container still expects to close. -/
def unfinalized : List ReplicaState := [.opened, .closing, .quasiClosed]

theorem ofName?_name (r : ReplicaState) : ofName? r.name = some r := by
  cases r <;> decide

end ReplicaState

/-- One node's copy of a container. -/
structure Replica where
  node : NodeId
  state : ReplicaState
  /-- The last write that the copy holds. -/
  sequence : UInt64
  /-- The lineage of the bytes, unknown only for malformed reports. -/
  origin : Option NodeId
  isEmpty : Bool
  deriving DecidableEq, Repr

end ReplicaUpkeep
