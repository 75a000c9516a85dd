import ReplicaUpkeep.Config
import ReplicaUpkeep.Evaluation
import ReplicaUpkeep.Image
import ReplicaUpkeep.Manager.Outbox
import ReplicaUpkeep.Metrics
import ReplicaUpkeep.Queue

/-!
# The manager

A manager keeps one cluster's store and registry, the queue of containers to repair, the metrics and
the outbox.  Here are the operations that events call for: evaluating one container, taking in a
report, and reacting when a node changes or leaves.  None of them dispatches repairs; those wait for
the next round.  Evaluations are taken to need no time.
-/

namespace ReplicaUpkeep

/-- One moment, on the two clocks that matter. -/
structure Moment where
  /-- The time of day, which operational states lapse by. -/
  wall : Timestamp
  /-- The reading of a steady clock in nanoseconds, which repairs in flight lapse by. -/
  steady : Nat
  deriving DecidableEq, Repr

/-- Everything that a manager keeps. -/
structure Manager where
  config : Config
  store : Store
  registry : Registry
  queue : RepairQueue
  metrics : Metrics
  outbox : Outbox

/-- Evaluate a known container. -/
def Store.evaluate (s : Store) (lookup : NodeLookup) (id : ContainerId) :
    Except Error Evaluation :=
  (s.snapshot id).map (fun snapshot => snapshot.evaluate lookup)

/-- Bring the queue in line with an evaluation.  A container on its way out is forgotten; otherwise
it waits with the imbalance it has, and no more repairs count as in flight than it still needs.
Repairs that were withheld are still needed. -/
def RepairQueue.settle (q : RepairQueue) (e : Evaluation) : Except Error RepairQueue :=
  if e.container.state.isBeingDeleted then .ok (q.forget e.id)
  else
    (q.follow e.capacity e.isRepairable).map (fun q =>
      let missing := if e.isRepairable then e.capacity.missing else 0
      let excess := if e.isRepairable then e.capacity.excess else 0
      (q.trim e.id .replicate missing).trim e.id .delete excess)

namespace Manager

/-- The most directives that any outbox can be made for. -/
def maxCapacity : Nat := 2305843009213693951

/-- A manager of a cluster, nothing having happened yet. -/
def of (config : Config) (store : Store) (registry : Registry) : Manager where
  config := config
  store := store
  registry := registry
  queue := .empty
  metrics := .empty
  outbox := .ofCapacity config.capacity.toNat

/-- A manager of a cluster, if an outbox as large as configured can be made. -/
def create? (config : Config) (store : Store) (registry : Registry) : Option Manager :=
  if config.capacity.toNat ≤ maxCapacity then some (.of config store registry) else none

/-- What the planner can learn of nodes at a moment. -/
def lookup (m : Manager) (now : Moment) : NodeLookup :=
  m.registry.lookup? now.wall

/-- Count an evaluation that took no time. -/
def countEvaluation (m : Manager) (success : Bool) : Manager :=
  { m with metrics := m.metrics.recordEvaluation .zero success }

/-- Evaluate one container and bring the queue in line with it.  Nothing is dispatched, and an
unknown container leaves the queue alone. -/
def evaluate (m : Manager) (now : Moment) (id : ContainerId) : Except Error Evaluation × Manager :=
  match m.store.evaluate (m.lookup now) id with
  | .error e => (.error e, m.countEvaluation false)
  | .ok evaluation =>
    let m := m.countEvaluation true
    match m.queue.settle evaluation with
    | .error e => (.error e, m)
    | .ok queue => (.ok evaluation, { m with queue })

/-- Take in a report.  A node that is registered hosts the container from then on, or no longer if
its replica is deleted. -/
def ingest (m : Manager) (r : Report) : Except Error Manager :=
  (m.store.report r).map (fun store =>
    let update := fun (g : Registry) =>
      if r.state = .deleted then g.removeContainer r.node r.container
      else g.addContainer r.node r.container
    { m with store, registry := m.registry.track update })

/-- Send directives, and count what was accepted and what was dropped. -/
def dispatch (m : Manager) (ds : List Directive) : Manager :=
  let sent := m.outbox.sendAll ds
  let metrics := sent.1.foldl (fun metrics d => metrics.recordDispatched d.kind) m.metrics
  { m with
    outbox := sent.2
    metrics := metrics.add (UInt64.ofNat (ds.length - sent.1.length)) .dropped }

/-- Evaluate containers in turn, doing something after each, and leave out those that no longer
exist.  Any other failure ends the visit at once; what was done before it stays done. -/
def visit (now : Moment) (after : Evaluation → Manager → Manager) :
    List ContainerId → Manager → Except Error (List Evaluation) × Manager
  | [], m => (.ok [], m)
  | id :: rest, m =>
    match m.evaluate now id with
    | (.ok evaluation, m) =>
      let others := visit now after rest (after evaluation m)
      (others.1.map (evaluation :: ·), others.2)
    | (.error e, m) => if e.isNotFound then visit now after rest m else (.error e, m)

/-- Evaluate every container that a node hosts, after its status has changed, and dispatch the closes
that follow. -/
def nodeChange (m : Manager) (now : Moment) (node : NodeId) :
    Except Error (List Evaluation) × Manager :=
  match m.registry.containers node with
  | .error e => (.error e, m)
  | .ok hosted =>
    visit now (fun evaluation m => m.dispatch (evaluation.ofKind .close)) hosted.keys m

/-- Remove a node for good, with every replica on it, and evaluate the containers that had one. -/
def evict (m : Manager) (now : Moment) (node : NodeId) :
    Except Error (List Evaluation) × Manager :=
  let evicted := m.store.evict node
  visit now (fun _ m => m) evicted.1
    { m with store := evicted.2, registry := m.registry.removeNode node }

/-- Take up to a number of directives out of the outbox. -/
def drain (m : Manager) (n : Nat) : List Directive × Manager :=
  let taken := m.outbox.take n
  (taken.1, { m with outbox := taken.2 })

/-- Let nobody listen to the outbox any more. -/
def hangUp (m : Manager) : Manager :=
  { m with outbox := m.outbox.hangUp }

end Manager

end ReplicaUpkeep
