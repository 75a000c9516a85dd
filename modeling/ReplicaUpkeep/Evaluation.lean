import ReplicaUpkeep.Capacity
import ReplicaUpkeep.Plan.Closing
import ReplicaUpkeep.Plan.Copying
import ReplicaUpkeep.Plan.Pruning

/-!
# Evaluating a container

One pass over one snapshot: its capacity, the verdict if the container is quasi-closed, and the plan.
A pass decides and changes nothing; what follows from it is carried out elsewhere.
-/

namespace ReplicaUpkeep

/-- The plan for a snapshot, given its capacity and the verdict on it.  A container on its way out is
left alone, and capacity is repaired at repairable stages only.  Nothing is deleted while a replica
may still take writes. -/
def Plan.of (lookup : NodeLookup) (s : Snapshot) (capacity : Capacity) (verdict : Option Verdict) :
    Plan :=
  if s.container.state.isBeingDeleted then .empty
  else
    let targets := s.closeTargets verdict
    let closes := Plan.closing lookup s.id targets.1 targets.2
    let repairable := s.container.state.isRepairable
    let copies :=
      if repairable && capacity.isUnder then Plan.copying lookup s capacity.missing else .empty
    let deletes :=
      if repairable && capacity.isOver && !s.any .writable then
        Plan.pruning lookup s capacity.excess
      else .empty
    closes ++ copies ++ deletes

/-- All that one pass decides about a container. -/
structure Evaluation where
  container : Container
  capacity : Capacity
  /-- There for quasi-closed containers only. -/
  verdict : Option Verdict
  directives : List Directive
  withheld : List Withheld
  deriving DecidableEq, Repr

/-- Evaluate a snapshot. -/
def Snapshot.evaluate (s : Snapshot) (lookup : NodeLookup) : Evaluation :=
  let capacity := s.capacity
  let verdict := if s.container.state = .quasiClosed then some s.verdict else none
  let plan := Plan.of lookup s capacity verdict
  { container := s.container
    capacity
    verdict
    directives := plan.directives
    withheld := plan.withheld }

namespace Evaluation

/-- The container's number. -/
def id (e : Evaluation) : ContainerId := e.container.id

/-- Is the container quasi-closed and not yet to be closed for good? -/
def isStuck (e : Evaluation) : Bool :=
  e.verdict.any Verdict.stuck

/-- Is the container quasi-closed and proven safe to close? -/
def isFinalizable (e : Evaluation) : Bool :=
  e.verdict.any (fun v => !v.stuck)

/-- Does capacity repair apply at the container's stage? -/
def isRepairable (e : Evaluation) : Bool :=
  e.container.state.isRepairable

/-- The directives of a kind, in order. -/
def ofKind (e : Evaluation) (kind : DirectiveKind) : List Directive :=
  Plan.ofKind e.directives kind

/-- How many directives of a kind there are. -/
def countOf (e : Evaluation) (kind : DirectiveKind) : Nat :=
  Plan.countOf e.directives kind

/-- How many directives are withheld in all of a list. -/
def withheldIn : List Evaluation → Nat
  | [] => 0
  | e :: rest => e.withheld.length + withheldIn rest

end Evaluation

end ReplicaUpkeep
