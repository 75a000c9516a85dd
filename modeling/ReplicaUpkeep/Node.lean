import ReplicaUpkeep.Replica
import ReplicaUpkeep.Timestamp.Basic

/-!
# Nodes

What is known of a storage node: whether it is in service, how healthy it looks, and until when a
state that was set by hand lasts.  A state that has lapsed reads as in service; the stored status
itself is not changed by the passing of time.
-/

namespace ReplicaUpkeep

/-- What an operator has decided about a node. -/
inductive OperationalState where
  | inService
  | decommissioning
  | decommissioned
  | enteringMaintenance
  | inMaintenance
  deriving DecidableEq, Repr

namespace OperationalState

/-- Every operational state. -/
def all : List OperationalState :=
  [.inService, .decommissioning, .decommissioned, .enteringMaintenance, .inMaintenance]

/-- The name of an operational state. -/
def name : OperationalState → String
  | .inService => "in_service"
  | .decommissioning => "decommissioning"
  | .decommissioned => "decommissioned"
  | .enteringMaintenance => "entering_maintenance"
  | .inMaintenance => "in_maintenance"

/-- The operational state of a name. -/
def ofName? (s : String) : Option OperationalState :=
  all.find? (fun o => o.name = s)

/-- Is the node leaving the cluster for good, or has it left? -/
def isDecommission : OperationalState → Bool
  | .decommissioning | .decommissioned => true
  | _ => false

/-- Is the node leaving for a while, or has it left for one? -/
def isMaintenance : OperationalState → Bool
  | .enteringMaintenance | .inMaintenance => true
  | _ => false

theorem ofName?_name (o : OperationalState) : ofName? o.name = some o := by
  cases o <;> decide

end OperationalState

/-- How a node looks to its heartbeat. -/
inductive NodeHealth where
  | healthy
  | stale
  | dead
  deriving DecidableEq, Repr

namespace NodeHealth

/-- Every health. -/
def all : List NodeHealth := [.healthy, .stale, .dead]

/-- The name of a health. -/
def name : NodeHealth → String
  | .healthy => "healthy"
  | .stale => "stale"
  | .dead => "dead"

/-- The health of a name. -/
def ofName? (s : String) : Option NodeHealth :=
  all.find? (fun h => h.name = s)

theorem ofName?_name (h : NodeHealth) : ofName? h.name = some h := by
  cases h <;> decide

end NodeHealth

/-- The state of a node in both respects. -/
structure NodeStatus where
  operational : OperationalState
  health : NodeHealth
  /-- When the operational state lapses by itself. -/
  expiry : Option Timestamp
  deriving DecidableEq, Repr

namespace NodeStatus

/-- Has the operational state lapsed? It has from the very moment of its expiry. -/
def isLapsed (s : NodeStatus) (now : Timestamp) : Bool :=
  match s.expiry with
  | none => false
  | some expiry => expiry ≤ now

/-- The status as it stands at a moment: a lapsed operational state reads as in service. -/
def effective (s : NodeStatus) (now : Timestamp) : NodeStatus :=
  if s.isLapsed now then { operational := .inService, health := s.health, expiry := none } else s

/-- May the node serve as the source of a copy? -/
def canSource (s : NodeStatus) : Bool :=
  s.health ≠ .dead && s.operational ≠ .decommissioned

/-- Will the node act on a directive? -/
def canReceive (s : NodeStatus) : Bool :=
  s.health ≠ .dead

end NodeStatus

/-- A node as it is registered. -/
structure NodeInfo where
  id : NodeId
  address : String
  status : NodeStatus
  deriving DecidableEq, Repr

/-- A filter on the state of nodes; what is not given matches anything. -/
structure NodeFilter where
  operational : Option OperationalState
  health : Option NodeHealth
  deriving DecidableEq, Repr

namespace NodeFilter

/-- The filter that every status matches. -/
def any : NodeFilter := { operational := none, health := none }

/-- Does a status match? -/
def accepts (f : NodeFilter) (s : NodeStatus) : Bool :=
  f.operational.all (fun o => o = s.operational) && f.health.all (fun h => h = s.health)

end NodeFilter

/-- What can be learnt of a node's status: nothing when the registry cannot answer. -/
abbrev NodeLookup := NodeId → Option NodeStatus

end ReplicaUpkeep
