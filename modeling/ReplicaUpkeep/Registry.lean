import ReplicaUpkeep.Error
import ReplicaUpkeep.Node
import ReplicaUpkeep.Table

/-!
# The node registry

The registered nodes, and for each of them the containers that it is believed to host.  Queries about
what a node may be used for read its status as it stands at a moment; the counting of nodes reads the
stored status.  A refused operation gives no new registry, so it leaves nothing behind.
-/

namespace ReplicaUpkeep

/-- A set of containers, in ascending order. -/
abbrev ContainerSet := Table ContainerId Unit

namespace ContainerSet

/-- The set of the members of a list. -/
def ofIds (ids : List ContainerId) : ContainerSet :=
  Table.ofList (ids.map (·, ()))

end ContainerSet

/-- The registered nodes and what each hosts. -/
structure Registry where
  nodes : Table NodeId NodeInfo
  hosted : Table NodeId ContainerSet
  deriving Repr

namespace Registry

/-- The registry without nodes. -/
def empty : Registry where
  nodes := .empty
  hosted := .empty

/-! ## Nodes -/

/-- Register a node that is not known yet; it hosts nothing. -/
def addNode (r : Registry) (info : NodeInfo) : Except Error Registry :=
  if r.nodes.contains info.id then .error (.nodeExists info.id)
  else .ok { nodes := r.nodes.insert info.id info, hosted := r.hosted.insert info.id .empty }

/-- Forget a node and what it hosts, whether it is known or not. -/
def removeNode (r : Registry) (node : NodeId) : Registry where
  nodes := r.nodes.erase node
  hosted := r.hosted.erase node

/-- The details of a known node. -/
def info (r : Registry) (node : NodeId) : Except Error NodeInfo :=
  match r.nodes.get? node with
  | none => .error (.nodeNotFound node)
  | some info => .ok info

/-- The stored status of a known node. -/
def status (r : Registry) (node : NodeId) : Except Error NodeStatus :=
  (r.info node).map NodeInfo.status

/-- Replace the details of a known node. -/
def updateNode (r : Registry) (info : NodeInfo) : Except Error Registry :=
  if r.nodes.contains info.id then .ok { r with nodes := r.nodes.insert info.id info }
  else .error (.nodeNotFound info.id)

/-- Change the status of a known node, giving the new status as well. -/
def changeStatus (r : Registry) (node : NodeId) (change : NodeStatus → NodeStatus) :
    Except Error (NodeStatus × Registry) :=
  match r.nodes.get? node with
  | none => .error (.nodeNotFound node)
  | some info =>
    let status := change info.status
    .ok (status, { r with nodes := r.nodes.insert node { info with status } })

/-- Change the health of a known node and nothing else of its status. -/
def setHealth (r : Registry) (node : NodeId) (health : NodeHealth) :
    Except Error (NodeStatus × Registry) :=
  r.changeStatus node (fun s => { s with health })

/-- Change the operational state of a known node, with the moment at which it lapses. -/
def setOperational (r : Registry) (node : NodeId) (operational : OperationalState)
    (expiry : Option Timestamp) : Except Error (NodeStatus × Registry) :=
  r.changeStatus node (fun s => { s with operational, expiry })

/-- The status of a known node as it stands at a moment. -/
def lookup (r : Registry) (now : Timestamp) (node : NodeId) : Except Error NodeStatus :=
  (r.status node).map (fun s => s.effective now)

/-- What the registry can tell the planner at a moment. -/
def lookup? (r : Registry) (now : Timestamp) : NodeLookup := fun node =>
  (r.nodes.get? node).map (fun info => info.status.effective now)

/-- The nodes whose status at a moment matches, in order. -/
def listNodes (r : Registry) (now : Timestamp) (f : NodeFilter) : List NodeId :=
  (r.nodes.filter (fun _ info => f.accepts (info.status.effective now))).keys

/-- Every node, in order. -/
def allNodes (r : Registry) : List NodeId :=
  r.nodes.keys

/-- How many nodes have a matching stored status. -/
def countNodes (r : Registry) (f : NodeFilter) : Nat :=
  (r.nodes.filter (fun _ info => f.accepts info.status)).size

/-- How many nodes are known. -/
def size (r : Registry) : Nat :=
  r.nodes.size

/-! ## Hosted containers -/

/-- The containers that a known node hosts. -/
def containers (r : Registry) (node : NodeId) : Except Error ContainerSet :=
  match r.hosted.get? node with
  | none => .error (.nodeNotFound node)
  | some set => .ok set

/-- Change the containers that a known node hosts. -/
def changeContainers (r : Registry) (node : NodeId) (change : ContainerSet → ContainerSet) :
    Except Error Registry :=
  (r.containers node).map (fun set => { r with hosted := r.hosted.insert node (change set) })

/-- Let a known node host a container. -/
def addContainer (r : Registry) (node : NodeId) (id : ContainerId) : Except Error Registry :=
  r.changeContainers node (fun set => set.insert id ())

/-- Let a known node no longer host a container. -/
def removeContainer (r : Registry) (node : NodeId) (id : ContainerId) : Except Error Registry :=
  r.changeContainers node (fun set => set.erase id)

/-- Let a known node host exactly these containers. -/
def setContainers (r : Registry) (node : NodeId) (set : ContainerSet) : Except Error Registry :=
  r.changeContainers node (fun _ => set)

/-- Apply an update of one node's containers, or leave the registry alone if the node is unknown. -/
def track (r : Registry) (update : Registry → Except Error Registry) : Registry :=
  match update r with
  | .ok r' => r'
  | .error _ => r

end Registry

end ReplicaUpkeep
