import ReplicaUpkeep.Report
import ReplicaUpkeep.Snapshot
import ReplicaUpkeep.Table

/-!
# The container store

The containers and, for each of them, the records of its replicas by node.  Snapshots are taken from
here.  A refused operation gives no new store, so it leaves nothing behind.
-/

namespace ReplicaUpkeep

/-- A container with the records of its replicas. -/
structure StoreEntry where
  container : Container
  replicas : Table NodeId Record
  deriving Repr

/-- The known containers. -/
structure Store where
  entries : Table ContainerId StoreEntry
  deriving Repr

namespace Store

/-- The store without containers. -/
def empty : Store where
  entries := .empty

/-- The entry of a known container. -/
def entry (s : Store) (id : ContainerId) : Except Error StoreEntry :=
  match s.entries.get? id with
  | none => .error (.containerNotFound id)
  | some e => .ok e

/-- Put an entry in the place of a container's. -/
def put (s : Store) (id : ContainerId) (e : StoreEntry) : Store where
  entries := s.entries.insert id e

/-! ## Containers -/

/-- Add a container that is not known yet; it has no replicas. -/
def add (s : Store) (c : Container) : Except Error Store :=
  if s.entries.contains c.id then .error (.containerExists c.id)
  else .ok (s.put c.id { container := c, replicas := .empty })

/-- A known container. -/
def container (s : Store) (id : ContainerId) : Except Error Container :=
  (s.entry id).map StoreEntry.container

/-- The known containers, ascending. -/
def ids (s : Store) : List ContainerId :=
  s.entries.keys

/-- How many containers are known. -/
def size (s : Store) : Nat :=
  s.entries.size

/-- Set the stage of a known container; any stage may follow any other. -/
def setState (s : Store) (id : ContainerId) (state : ContainerState) : Except Error Store :=
  (s.entry id).map (fun e => s.put id { e with container := { e.container with state } })

/-- Set the sequence of a known container, which never moves backwards. -/
def setSequence (s : Store) (id : ContainerId) (sequence : UInt64) : Except Error Store := do
  let e ← s.entry id
  if sequence < e.container.sequence then
    .error (.invalidReport id (.containerRegressed e.container.sequence sequence))
  else
    .ok (s.put id { e with container := { e.container with sequence } })

/-- Forget a known container and its replicas, giving the container. -/
def remove (s : Store) (id : ContainerId) : Except Error (Container × Store) :=
  (s.container id).map (fun c => (c, { entries := s.entries.erase id }))

/-! ## Replicas -/

/-- Take in a report on a replica of a known container. -/
def report (s : Store) (r : Report) : Except Error Store := do
  let e ← s.entry r.container
  let old := e.replicas.get? r.node
  match old.bind (fun record => record.fault? r) with
  | some fault => .error (.invalidReport r.container fault)
  | none =>
    .ok (s.put r.container { e with replicas := e.replicas.insert r.node (.ofReport old r) })

/-- The record of a replica. -/
def record (s : Store) (id : ContainerId) (node : NodeId) : Except Error Record := do
  let e ← s.entry id
  match e.replicas.get? node with
  | none => .error (.replicaNotFound id node)
  | some record => .ok record

/-- Forget a replica that has a record. -/
def removeReplica (s : Store) (id : ContainerId) (node : NodeId) : Except Error Store := do
  let e ← s.entry id
  if e.replicas.contains node then
    .ok (s.put id { e with replicas := e.replicas.erase node })
  else .error (.replicaNotFound id node)

/-- Forget every replica on a node, giving the containers that had one, ascending. -/
def evict (s : Store) (node : NodeId) : List ContainerId × Store :=
  ((s.entries.filter (fun _ e => e.replicas.contains node)).keys,
    { entries := s.entries.map (fun _ e => { e with replicas := e.replicas.erase node }) })

/-- The snapshot that an entry gives. -/
def snapshotOf (e : StoreEntry) : Snapshot :=
  .of e.container (e.replicas.entries.map (fun r => r.2.toReplica r.1))

/-- The snapshot of a known container. -/
def snapshot (s : Store) (id : ContainerId) : Except Error Snapshot :=
  (s.entry id).map snapshotOf

end Store

end ReplicaUpkeep
