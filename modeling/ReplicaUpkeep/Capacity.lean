import ReplicaUpkeep.Snapshot

/-!
# Capacity of a container

How many live replicas a container has, how many of them are good, and how that compares with the
count it should have.  Writable replicas count as good here; whether they may be relied on otherwise
is not a question of capacity.
-/

namespace ReplicaUpkeep

/-- Counts of a container's live replicas beside the count it should have. -/
structure Capacity where
  container : ContainerId
  factor : Nat
  /-- Live replicas of any state. -/
  total : Nat
  /-- Live replicas that are not unhealthy. -/
  good : Nat
  unhealthy : Nat
  deriving DecidableEq, Repr

namespace Capacity

/-- Are there too few good replicas? -/
def isUnder (c : Capacity) : Bool := c.good < c.factor

/-- Are there too many good replicas? -/
def isOver (c : Capacity) : Bool := c.factor < c.good

/-- Are there as many good replicas as wanted and no unhealthy one? -/
def isHealthy (c : Capacity) : Bool := c.good = c.factor && c.unhealthy = 0

/-- The replicas to add. -/
def missing (c : Capacity) : Nat := c.factor - c.good

/-- The good replicas to take away. -/
def excess (c : Capacity) : Nat := c.good - c.factor

end Capacity

/-- The capacity of a snapshot's container. -/
def Snapshot.capacity (s : Snapshot) : Capacity where
  container := s.id
  factor := s.factor
  total := s.size
  good := s.count .good
  unhealthy := s.count .unhealthy

end ReplicaUpkeep
