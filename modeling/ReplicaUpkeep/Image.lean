import ReplicaUpkeep.Registry
import ReplicaUpkeep.Store

/-!
# Cluster images

An image lists the nodes, containers and replica reports of a cluster.  It is built into a store and
a registry in that order, and the first entry that does not fit refuses the whole image.  Replicas on
nodes that the image does not list are kept; only the registry does not know of them.
-/

namespace ReplicaUpkeep

/-- The contents of a cluster. -/
structure ClusterImage where
  nodes : List NodeInfo
  containers : List Container
  reports : List Report
  deriving DecidableEq, Repr

namespace ClusterImage

/-- The image of nothing. -/
def empty : ClusterImage where
  nodes := []
  containers := []
  reports := []

/-- The registry of a list of nodes with distinct names. -/
def registryOf (nodes : List NodeInfo) : Except Error Registry :=
  nodes.foldlM Registry.addNode .empty

/-- The store of a list of containers with distinct numbers. -/
def storeOf (containers : List Container) : Except Error Store :=
  containers.foldlM Store.add .empty

/-- Take in one report, and let its node host the container if the node is known. -/
def takeReport (parts : Store × Registry) (r : Report) : Except Error (Store × Registry) :=
  (parts.1.report r).map
    (fun store => (store, parts.2.track (fun g => g.addContainer r.node r.container)))

/-- The store and the registry of an image. -/
def build (image : ClusterImage) : Except Error (Store × Registry) := do
  let registry ← registryOf image.nodes
  let store ← storeOf image.containers
  image.reports.foldlM takeReport (store, registry)

end ClusterImage

end ReplicaUpkeep
