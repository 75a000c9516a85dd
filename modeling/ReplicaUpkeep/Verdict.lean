import ReplicaUpkeep.Snapshot
import ReplicaUpkeep.Table

/-!
# The verdict on a quasi-closed container

A quasi-closed container may be closed for good when its replicas prove one complete lineage, as far
advanced as any live copy.  The verdict is *stuck* while a replica is still writable, while fewer
replicas than wanted are known, while no sealed replica has the highest sequence of all, or while two
of those that have it descend from one origin.  The highest sequence is taken over every live
replica, usable or not, and never from the container's own record.
-/

namespace ReplicaUpkeep

/-- Do the replicas of a set descend from different origins? -/
inductive Origins where
  /-- No origin occurs twice. -/
  | clean
  /-- Some origins occur more than once, here with the nodes that hold them. -/
  | ambiguous (duplicates : Table NodeId (List NodeId))
  deriving DecidableEq, Repr

namespace Origins

/-- The nodes of each origin, in the order of the replicas; replicas without an origin are left out. -/
def holders (replicas : List Replica) : Table NodeId (List NodeId) :=
  replicas.foldl
    (fun t r =>
      match r.origin with
      | none => t
      | some origin => t.insert origin ((t.get? origin).getD [] ++ [r.node]))
    .empty

/-- The origins of a list of replicas, told apart. -/
def ofReplicas (replicas : List Replica) : Origins :=
  let duplicates := (holders replicas).filter (fun _ nodes => 1 < nodes.length)
  if duplicates.isEmpty then .clean else .ambiguous duplicates

/-- Does some origin occur twice? -/
def isAmbiguous : Origins → Bool
  | .clean => false
  | .ambiguous _ => true

end Origins

/-- What the replicas of a quasi-closed container prove. -/
structure Verdict where
  /-- The highest sequence of any live replica. -/
  maxSequence : UInt64
  /-- Nodes of the sealed replicas at the highest sequence, in order. -/
  eligible : List NodeId
  /-- Those of them whose replica is already closed. -/
  eligibleClosed : List NodeId
  /-- Nodes whose replica may still take writes. -/
  writable : List NodeId
  /-- Is there any such node? -/
  blockingOpen : Bool
  /-- Are as many replicas known as wanted? -/
  fullPicture : Bool
  origins : Origins
  /-- May the container not be closed yet? -/
  stuck : Bool
  deriving DecidableEq, Repr

namespace Verdict

/-- Does no sealed replica have the highest sequence? -/
def noEligible (v : Verdict) : Bool := v.eligible.isEmpty

/-- The eligible nodes whose replica still has to be closed. -/
def finalizeTargets (v : Verdict) : List NodeId :=
  v.eligible.filter (fun n => !v.eligibleClosed.contains n)

/-- The first reason for which the container is stuck. -/
inductive Reason where
  | writable
  | missingReports
  | noEligible
  | duplicateOrigin
  | resolved
  deriving DecidableEq, Repr

/-- The wording of a reason. -/
def Reason.message : Reason → String
  | .writable => "replica still open"
  | .missingReports => "missing replica reports"
  | .noEligible => "latest sequence only on unusable replica"
  | .duplicateOrigin => "duplicate origin among eligible replicas"
  | .resolved => "resolved"

/-- The first reason that applies, in the order of the verdict's checks. -/
def reason (v : Verdict) : Reason :=
  if v.blockingOpen then .writable
  else if !v.fullPicture then .missingReports
  else if v.noEligible then .noEligible
  else if v.origins.isAmbiguous then .duplicateOrigin
  else .resolved

end Verdict

/-- The sealed replicas at the highest sequence, in the order of their nodes. -/
def Snapshot.eligible (s : Snapshot) : List Replica :=
  s.select (Selector.sealed.both (.atSequence s.maxSequence))

/-- The verdict on a snapshot, whatever the state of its container. -/
def Snapshot.verdict (s : Snapshot) : Verdict :=
  let eligible := s.eligible
  let writable := s.nodesOf .writable
  let blockingOpen := !writable.isEmpty
  let fullPicture := decide (s.factor ≤ s.size)
  let origins := Origins.ofReplicas eligible
  { maxSequence := s.maxSequence
    eligible := eligible.map Replica.node
    eligibleClosed := (eligible.filter (fun r => r.state = .closed)).map Replica.node
    writable
    blockingOpen
    fullPicture
    origins
    stuck := blockingOpen || !fullPicture || eligible.isEmpty || origins.isAmbiguous }

end ReplicaUpkeep
