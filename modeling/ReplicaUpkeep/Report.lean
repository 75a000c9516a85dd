import ReplicaUpkeep.Error

/-!
# Reports and records of replicas

A report is what a node says of one of its replicas; a record is what is kept of it.  A report that
lacks its sequence or its origin is malformed: the replica then counts as unhealthy, with nothing to
show for its writes, until a full report comes.  What earlier reports gave is carried over, and only
guards against moving backwards.
-/

namespace ReplicaUpkeep

/-- What a node says of one of its replicas. -/
structure Report where
  container : ContainerId
  node : NodeId
  state : ReplicaState
  sequence : Option UInt64
  origin : Option NodeId
  isEmpty : Bool
  deriving DecidableEq, Repr

/-- Does the report lack its sequence or its origin? -/
def Report.isMalformed (r : Report) : Bool :=
  r.sequence.isNone || r.origin.isNone

/-- What is kept of a replica. -/
structure Record where
  state : ReplicaState
  sequence : Option UInt64
  origin : Option NodeId
  isEmpty : Bool
  /-- Did the latest report lack its sequence or its origin? -/
  malformed : Bool
  deriving DecidableEq, Repr

namespace Record

/-- What a report contradicts of the record before it: the sequence is looked at first. -/
def fault? (old : Record) (r : Report) : Option ReportFault :=
  match old.sequence, r.sequence with
  | some before, some after =>
    if after < before then some (.replicaRegressed r.node before after) else originFault?
  | _, _ => originFault?
where
  /-- A change of the lineage. -/
  originFault? : Option ReportFault :=
    match old.origin, r.origin with
    | some before, some after =>
      if before = after then none else some (.originChanged r.node before after)
    | _, _ => none

/-- The record after a report, with what was known before it. -/
def ofReport (old : Option Record) (r : Report) : Record where
  state := r.state
  sequence := r.sequence <|> old.bind Record.sequence
  origin := r.origin <|> old.bind Record.origin
  isEmpty := r.isEmpty
  malformed := r.isMalformed

/-- The replica that a record stands for: after a malformed report it is unhealthy at sequence zero,
unless it is deleted. -/
def toReplica (node : NodeId) (r : Record) : Replica :=
  let malformed := r.malformed || r.sequence.isNone || r.origin.isNone
  { node
    state := if malformed && r.state ≠ .deleted then .unhealthy else r.state
    sequence := if malformed then 0 else r.sequence.getD 0
    origin := r.origin
    isEmpty := r.isEmpty }

end Record

end ReplicaUpkeep
