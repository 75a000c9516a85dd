import ReplicaUpkeep.Capacity
import ReplicaUpkeep.Error
import ReplicaUpkeep.Queue.Inflight
import ReplicaUpkeep.Queue.Waiting

/-!
# The repair queue

The line of containers that wait for repair, together with the repairs in flight.  A queue can be
closed: it then empties, and refuses new containers for ever; everything else goes on working.  A call
that breaks down takes the whole queue with it, and only a record can: where the clock cannot show the
deadline.
-/

namespace ReplicaUpkeep

/-- The waiting line, the repairs in flight, and whether the queue is closed. -/
structure RepairQueue where
  line : WaitingLine
  inflight : Inflight
  closed : Bool
  deriving Repr

namespace RepairQueue

/-- The open queue in which nothing waits. -/
def empty : RepairQueue where
  line := .empty
  inflight := .empty
  closed := false

/-- Let a container wait for repair.  Tells whether it did not wait already. -/
def enqueue (q : RepairQueue) (id : ContainerId) (i : Imbalance) (priority : UInt32) :
    Except Error (Bool × RepairQueue) :=
  if q.closed then .error .queueClosed
  else
    let joined := q.line.join id i priority
    .ok (joined.1, { q with line := joined.2 })

/-- Let a container no longer wait with an imbalance.  Tells whether it did. -/
def remove (q : RepairQueue) (id : ContainerId) (i : Imbalance) : Bool × RepairQueue :=
  let left := q.line.leave id i
  (left.1, { q with line := left.2 })

/-- Take up to a number of containers from the front. -/
def dequeue (q : RepairQueue) (n : Nat) : List Waiter × RepairQueue :=
  let taken := q.line.batch n
  (taken.1, { q with line := taken.2 })

/-- Let a container wait no longer, and forget what is in flight for it. -/
def forget (q : RepairQueue) (id : ContainerId) : RepairQueue :=
  let q' := ((q.remove id .shortage).2.remove id .surplus).2
  { q' with inflight := q'.inflight.forget id }

/-- Empty the queue and refuse new containers from now on. -/
def close (q : RepairQueue) : RepairQueue where
  line := { WaitingLine.empty with nextTicket := q.line.nextTicket }
  inflight := .empty
  closed := true

/-- Does a container wait with an imbalance? -/
def contains (q : RepairQueue) (id : ContainerId) (i : Imbalance) : Bool :=
  q.line.contains id i

/-- How many containers wait with an imbalance. -/
def count (q : RepairQueue) (i : Imbalance) : Nat :=
  q.line.count i

/-- Does nothing wait? -/
def isEmpty (q : RepairQueue) : Bool :=
  q.line.isEmpty

/-- How many repairs count at a moment. -/
def current (q : RepairQueue) (id : ContainerId) (kind : DirectiveKind) (now : Nat) :
    UInt64 × RepairQueue :=
  let asked := q.inflight.current id kind now
  (asked.1, { q with inflight := asked.2 })

/-- Count repairs sent at a moment, to lapse after a time. -/
def record (q : RepairQueue) (id : ContainerId) (kind : DirectiveKind) (count : UInt64) (now : Nat)
    (ttl : Duration) : RepairQueue :=
  { q with inflight := q.inflight.record id kind count now ttl }

/-- Count repairs sent at a moment, if the clock can show their deadline.  Where none were sent, no deadline
is set. -/
def record? (q : RepairQueue) (id : ContainerId) (kind : DirectiveKind) (count now : Nat)
    (ttl : Duration) : Option RepairQueue :=
  if count = 0 ∨ Inflight.InRange now ttl then some (q.record id kind (UInt64.ofNat count) now ttl)
  else none

/-- What a call is answered with that needs the queue after another one broke down with it in hand. -/
def poisoned : Error :=
  .internal "reconciliation queue lock poisoned"

/-- Let no more repairs count than are still needed. -/
def trim (q : RepairQueue) (id : ContainerId) (kind : DirectiveKind) (needed : Nat) : RepairQueue :=
  { q with inflight := q.inflight.trim id kind needed }

/-- Let a container wait with an imbalance exactly if it has it. -/
def align (q : RepairQueue) (id : ContainerId) (i : Imbalance) (priority : UInt32) (has : Bool) :
    Except Error RepairQueue :=
  if has then (q.enqueue id i priority).map Prod.snd else .ok (q.remove id i).2

/-- Let the container of a capacity wait with exactly the imbalance that it has, if it is at a
repairable stage.  Of containers with too few replicas those with the fewest come first. -/
def follow (q : RepairQueue) (c : Capacity) (repairable : Bool) : Except Error RepairQueue := do
  let q ← q.align c.container .shortage (UInt32.ofNat c.good) (repairable && c.isUnder)
  q.align c.container .surplus 0 (repairable && c.isOver)

end RepairQueue

end ReplicaUpkeep
