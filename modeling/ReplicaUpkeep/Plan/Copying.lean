import ReplicaUpkeep.Directive
import ReplicaUpkeep.Node
import ReplicaUpkeep.Snapshot

/-!
# Planning copies

What is asked when replicas are missing.  Copies come from the best tier that has a usable replica:
sealed replicas with data, else any good replica, else unhealthy replicas that have the highest
sequence.  A lone source is named in the directive, several are left to whoever carries it out.
Without any source every copy is withheld.
-/

namespace ReplicaUpkeep.Plan

/-- Does the node of a replica answer, and may it serve as a source? -/
def isUsableSource (lookup : NodeLookup) (r : Replica) : Bool :=
  (lookup r.node).any NodeStatus.canSource

/-- The unhealthy replicas that have the highest sequence. -/
def latestUnhealthy (s : Snapshot) : List Replica :=
  s.select (Selector.unhealthy.both (.atSequence s.maxSequence))

/-- The replicas to copy from: the best tier that is not empty. -/
def sourcePool (lookup : NodeLookup) (s : Snapshot) : List Replica :=
  match (s.select .good).filter (isUsableSource lookup) with
  | [] => (latestUnhealthy s).filter (isUsableSource lookup)
  | good =>
    match good.filter (fun r => ReplicaState.sealed.contains r.state && !r.isEmpty) with
    | [] => good
    | filled => filled

/-- Could a node that might have been a source not be looked up? -/
def sourceLookupFailed (lookup : NodeLookup) (s : Snapshot) : Bool :=
  (s.select .good ++ latestUnhealthy s).any (fun r => (lookup r.node).isNone)

/-- The plan that makes up for missing replicas. -/
def copying (lookup : NodeLookup) (s : Snapshot) (missing : Nat) : Plan :=
  match sourcePool lookup s with
  | [] =>
    let reason := if sourceLookupFailed lookup s then .registryUnavailable else .noSource
    { directives := []
      withheld := List.replicate missing ⟨.replicate, none, reason⟩ }
  | [only] =>
    { directives := List.replicate missing (.replicate s.id (some only.node))
      withheld := [] }
  | _ =>
    { directives := List.replicate missing (.replicate s.id none)
      withheld := [] }

end ReplicaUpkeep.Plan
