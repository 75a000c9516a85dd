import ReplicaUpkeep.Directive
import ReplicaUpkeep.Node
import ReplicaUpkeep.Verdict

/-!
# Planning closes

Which replicas are told to close.  Writable replicas of a closing container are; for a quasi-closed
one the verdict decides; a closed container closes what lags behind at its own sequence.  A node that
cannot be looked up or is dead is withheld.  When closing is final, hosts that are being
decommissioned wait as long as a host that stays has something to close.
-/

namespace ReplicaUpkeep

/-- The nodes to be told to close, and whether closing them is final. -/
def Snapshot.closeTargets (s : Snapshot) (verdict : Option Verdict) : List NodeId × Bool :=
  match s.container.state with
  | .closing => (s.nodesOf .writable, false)
  | .quasiClosed =>
    match verdict with
    | none => ([], false)
    | some v =>
      if v.blockingOpen then (v.writable, false)
      else if v.stuck then ([], false)
      else (v.finalizeTargets, true)
  | .closed =>
    (s.nodesOf (Selector.unfinalized.both (.atSequence s.container.sequence)), false)
  | _ => ([], false)

namespace Plan

/-- Why a node that should close cannot be asked to, if it cannot. -/
def closeRefusal? (lookup : NodeLookup) (node : NodeId) : Option WithholdReason :=
  match lookup node with
  | none => some .registryUnavailable
  | some status => if status.canReceive then none else some .nodeDead

/-- The nodes that can be asked, each with its status. -/
def reachable (lookup : NodeLookup) (nodes : List NodeId) : List (NodeId × NodeStatus) :=
  nodes.filterMap (fun n => ((lookup n).filter NodeStatus.canReceive).map (n, ·))

/-- The plan that closes the replicas on the given nodes. -/
def closing (lookup : NodeLookup) (id : ContainerId) (targets : List NodeId) (final : Bool) :
    Plan :=
  let refused := targets.filterMap (fun n =>
    (closeRefusal? lookup n).map (fun reason => (⟨.close, some n, reason⟩ : Withheld)))
  let asked := reachable lookup targets
  let someStays := asked.any (fun a => !a.2.operational.isDecommission)
  let waits := fun (a : NodeId × NodeStatus) => final && someStays && a.2.operational.isDecommission
  { directives := (asked.filter (fun a => !waits a)).map (fun a => .close id a.1)
    withheld := refused ++
      (asked.filter waits).map (fun a => ⟨.close, some a.1, .decommissioningHost⟩) }

end Plan

end ReplicaUpkeep
