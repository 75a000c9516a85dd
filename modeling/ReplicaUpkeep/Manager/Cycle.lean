import ReplicaUpkeep.Manager

/-!
# Rounds of a manager

In one round every container is evaluated once and the queue is brought in line; then all closes go
out, in the order of the containers; then a batch of waiting containers is repaired, less the repairs
that are still in flight.  A container whose queueing fails is counted as failed and costs the others
nothing, nor its own closes.  Repairs that went out earlier were the first of the same list, so as
many of its first directives are left out as are still in flight.

The metrics count evaluations, directives and what is held back at the moment at which each of them
happens; only what was withheld is counted, and the gauges are set, at the end of the round.
-/

namespace ReplicaUpkeep

/-- What one round came to. -/
structure CycleReport where
  evaluated : Nat
  failed : Nat
  stuck : Nat
  finalizable : Nat
  underReplicated : Nat
  overReplicated : Nat
  closes : Nat
  replicates : Nat
  deletes : Nat
  withheld : Nat
  /-- Directives that the outbox did not take. -/
  dropped : Nat
  /-- Repairs left out because earlier ones are in flight. -/
  suppressed : Nat
  deriving DecidableEq, Repr

/-- All directives that the round sent. -/
def CycleReport.dispatched (r : CycleReport) : Nat :=
  r.closes + r.replicates + r.deletes

/-- What the dispatching of a round has come to so far. -/
structure Dispatch where
  queue : RepairQueue
  outbox : Outbox
  /-- The directives that the outbox took. -/
  accepted : List Directive
  dropped : Nat
  suppressed : Nat
  metrics : Metrics

namespace Dispatch

/-- Nothing dispatched yet. -/
def start (queue : RepairQueue) (outbox : Outbox) (metrics : Metrics) : Dispatch where
  queue := queue
  outbox := outbox
  accepted := []
  dropped := 0
  suppressed := 0
  metrics := metrics

/-- Send directives, giving also how many of them were accepted.  Each is counted as it is sent, and those
behind the accepted ones as they are dropped. -/
def send (d : Dispatch) (ds : List Directive) : Nat × Dispatch :=
  let sent := d.outbox.sendAll ds
  (sent.1.length, { d with
    outbox := sent.2
    accepted := d.accepted ++ sent.1
    dropped := d.dropped + (ds.length - sent.1.length)
    metrics := (ds.drop sent.1.length).foldl (fun metrics _ => metrics.add 1 .dropped)
      (sent.1.foldl (fun metrics x => metrics.recordDispatched x.kind) d.metrics) })

/-- Repair a container that has left the queue: send what is wanted and not in flight, and count what
was accepted as in flight. -/
def repair (d : Dispatch) (now : Nat) (ttl : Duration) (w : Waiter) (e : Evaluation) : Dispatch :=
  let kind := w.imbalance.repair
  let wanted := e.ofKind kind
  let asked := d.queue.current w.container kind now
  let suppressed := min asked.1.toNat wanted.length
  let held := { d with
    queue := asked.2
    suppressed := d.suppressed + suppressed
    metrics := d.metrics.add (UInt64.ofNat suppressed) .suppressed }
  let sent := held.send (wanted.drop suppressed)
  { sent.2 with
    queue := sent.2.queue.record w.container kind (UInt64.ofNat sent.1) now ttl }

/-- Repair a batch; a container that was not evaluated in this round is passed over. -/
def repairAll (d : Dispatch) (now : Nat) (ttl : Duration)
    (evaluations : Table ContainerId Evaluation) (batch : List Waiter) : Dispatch :=
  batch.foldl
    (fun d w =>
      match evaluations.get? w.container with
      | none => d
      | some e => d.repair now ttl w e)
    d

end Dispatch

/-- Bring the queue in line with evaluations in turn, counting those for which it fails. -/
def RepairQueue.settleAll : List Evaluation → RepairQueue → Nat × RepairQueue
  | [], q => (0, q)
  | e :: rest, q =>
    match q.settle e with
    | .ok q => settleAll rest q
    | .error _ =>
      let others := settleAll rest q
      (others.1 + 1, others.2)

namespace Manager

/-- The evaluation of every container at a moment. -/
def evaluations (m : Manager) (now : Moment) : Table ContainerId Evaluation :=
  m.store.entries.map (fun _ entry => (Store.snapshotOf entry).evaluate (m.lookup now))

/-- The metrics once every evaluation is counted. -/
def countEvaluations (metrics : Metrics) (evaluations : List Evaluation) : Metrics :=
  evaluations.foldl (fun metrics _ => metrics.recordEvaluation .zero true) metrics

/-- All that a round dispatches, given its evaluations and the queue in line with them. -/
def dispatchRound (m : Manager) (now : Moment) (evaluations : Table ContainerId Evaluation)
    (queue : RepairQueue) : Dispatch :=
  let closes := evaluations.values.flatMap (fun e => e.ofKind .close)
  let counted := countEvaluations m.metrics evaluations.values
  let closed := ((Dispatch.start queue m.outbox counted).send closes).2
  let taken := closed.queue.dequeue m.config.maxRepairs.toNat
  { closed with queue := taken.2 }.repairAll now.steady m.config.inflightTimeout evaluations taken.1

/-- The report of a round. -/
def reportOf (evaluations : List Evaluation) (failed : Nat) (d : Dispatch) : CycleReport where
  evaluated := evaluations.length
  failed := failed
  stuck := evaluations.countP Evaluation.isStuck
  finalizable := evaluations.countP Evaluation.isFinalizable
  underReplicated := evaluations.countP (fun e => e.capacity.isUnder)
  overReplicated := evaluations.countP (fun e => e.capacity.isOver)
  closes := Plan.countOf d.accepted .close
  replicates := Plan.countOf d.accepted .replicate
  deletes := Plan.countOf d.accepted .delete
  withheld := Evaluation.withheldIn evaluations
  dropped := d.dropped
  suppressed := d.suppressed

/-- The metrics at the end of a round: what was withheld is counted and the gauges are set. -/
def metricsAfter (m : Metrics) (r : CycleReport) : Metrics :=
  let counted := m.add (UInt64.ofNat r.withheld) .withheld
  ((counted.set (UInt64.ofNat r.stuck) .stuck).set (UInt64.ofNat r.underReplicated) .underReplicated).set
    (UInt64.ofNat r.overReplicated) .overReplicated

/-- One round: evaluate every container, then dispatch all closes and a batch of repairs. -/
def cycle (m : Manager) (now : Moment) : CycleReport × Manager :=
  let evaluations := m.evaluations now
  let settled := m.queue.settleAll evaluations.values
  let dispatched := m.dispatchRound now evaluations settled.2
  let report := reportOf evaluations.values settled.1 dispatched
  (report, { m with
    queue := dispatched.queue
    outbox := dispatched.outbox
    metrics := metricsAfter dispatched.metrics report })

/-- Can the steady clock show the deadline of a repair sent now? -/
def canStamp (m : Manager) (now : Moment) : Bool :=
  Inflight.InRange now.steady m.config.inflightTimeout

/-- One round, if every deadline that it sets is within the range of the clock. -/
def cycle? (m : Manager) (now : Moment) : Option (CycleReport × Manager) :=
  let done := m.cycle now
  if done.1.replicates + done.1.deletes = 0 ∨ m.canStamp now then some done else none

/-- Stop the periodic rounds: the queue is closed for good. -/
def stop (m : Manager) : Manager :=
  { m with queue := m.queue.close }

end Manager

end ReplicaUpkeep
