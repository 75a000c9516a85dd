import ReplicaUpkeep.Manager

/-!
# Auditing a cluster

Two looks at a whole cluster that change nothing: a report on the health of its containers and nodes,
and the plan of everything that one pass of evaluations asks for.  Containers are visited in
ascending order; what cannot be evaluated is listed with its error and does not stop the visit.
-/

namespace ReplicaUpkeep

/-- What came of visiting every container. -/
abbrev Findings := List (ContainerId × Except Error Evaluation)

/-- Evaluate every container of a store. -/
def Store.findings (s : Store) (lookup : NodeLookup) : Findings :=
  s.ids.map (fun id => (id, s.evaluate lookup id))

namespace Findings

/-- The evaluations that succeeded. -/
def evaluations (f : Findings) : List Evaluation :=
  f.filterMap (fun x => x.2.toOption)

/-- The containers that could not be evaluated, each with the error in words. -/
def errors (f : Findings) : List String :=
  f.filterMap (fun x =>
    match x.2 with
    | .ok _ => none
    | .error e => some (x.1.render ++ ": " ++ e.message))

end Findings

/-- A quasi-closed container that cannot be closed for good yet. -/
structure StuckContainer where
  container : ContainerId
  reason : Verdict.Reason
  deriving DecidableEq, Repr

/-- The health of a cluster. -/
structure HealthReport where
  containers : Nat
  healthy : Nat
  underReplicated : Nat
  overReplicated : Nat
  stuck : List StuckContainer
  finalizable : Nat
  /-- How many nodes there are of each status, by operational state and health. -/
  nodes : Table String Nat
  errors : List String
  deriving Repr

namespace HealthReport

/-- Is every container healthy, and could all be evaluated? -/
def isClean (r : HealthReport) : Bool :=
  r.healthy = r.containers && r.errors.isEmpty

/-- The stuck container of an evaluation, if it is one. -/
def stuck? (e : Evaluation) : Option StuckContainer :=
  (e.verdict.filter Verdict.stuck).map (fun v => ⟨e.id, v.reason⟩)

/-- Every pair of an operational state and a health. -/
def statuses : List (OperationalState × NodeHealth) :=
  OperationalState.all.flatMap (fun o => NodeHealth.all.map (fun h => (o, h)))

/-- The name of a status. -/
def statusName (s : OperationalState × NodeHealth) : String :=
  s.1.name ++ "/" ++ s.2.name

/-- How many nodes have each status at a moment; a status that no node has is left out. -/
def nodeCounts (r : Registry) (now : Timestamp) : Table String Nat :=
  .ofList ((statuses.map (fun s =>
    (statusName s, (r.listNodes now ⟨some s.1, some s.2⟩).length))).filter (fun c => 0 < c.2))

/-- The health of a cluster at a moment. -/
def of (parts : Store × Registry) (now : Timestamp) : HealthReport :=
  let findings := parts.1.findings (parts.2.lookup? now)
  let evaluations := findings.evaluations
  { containers := findings.length
    healthy := evaluations.countP (fun e => !e.isStuck && e.capacity.isHealthy)
    underReplicated := evaluations.countP (fun e => e.capacity.isUnder)
    overReplicated := evaluations.countP (fun e => e.capacity.isOver)
    stuck := evaluations.filterMap stuck?
    finalizable := evaluations.countP Evaluation.isFinalizable
    nodes := nodeCounts parts.2 now
    errors := findings.errors }

end HealthReport

/-- Everything that one pass of evaluations asks for. -/
structure ClusterPlan where
  containers : Nat
  directives : List Directive
  /-- How many directives were decided on and do not go out. -/
  withheld : Nat
  errors : List String
  deriving DecidableEq, Repr

namespace ClusterPlan

/-- The plan for a cluster at a moment. -/
def of (parts : Store × Registry) (now : Timestamp) : ClusterPlan :=
  let findings := parts.1.findings (parts.2.lookup? now)
  let evaluations := findings.evaluations
  { containers := findings.length
    directives := evaluations.flatMap Evaluation.directives
    withheld := Evaluation.withheldIn evaluations
    errors := findings.errors }

end ClusterPlan

end ReplicaUpkeep
