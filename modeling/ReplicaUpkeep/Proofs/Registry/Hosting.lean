import ReplicaUpkeep.Registry
import ReplicaUpkeep.Report

/-!
# What nodes are believed to host

The registry keeps a set of containers for each of its nodes.  Whatever is done to the set of one node
leaves the sets of the others alone, and leaves every node as it is.  A manager that takes in reports
follows them: the node of a report hosts the container from then on, unless the report is of a deletion.
-/

namespace ReplicaUpkeep

namespace ContainerSet

theorem mem_keys_insert (set : ContainerSet) (id' id : ContainerId) :
    id ∈ (set.insert id' ()).keys ↔ id = id' ∨ id ∈ set.keys := by
  rw [Table.mem_keys_iff, Table.mem_keys_iff, Table.get?_insert]
  by_cases hId : id = id' <;> simp [hId]

theorem mem_keys_erase (set : ContainerSet) (id' id : ContainerId) :
    id ∈ (set.erase id').keys ↔ id ≠ id' ∧ id ∈ set.keys := by
  rw [Table.mem_keys_iff, Table.mem_keys_iff, Table.get?_erase]
  by_cases hId : id = id' <;> simp [hId]

/-- A set is its members. -/
theorem ext_mem {a b : ContainerSet} (h : ∀ id, id ∈ a.keys ↔ id ∈ b.keys) : a = b := by
  refine Table.ext_get? fun id => Option.ext fun _ => ?_
  have hMem := h id
  simp only [Table.mem_keys_iff] at hMem
  constructor
  · intro ha
    obtain ⟨_, hb⟩ := hMem.1 ⟨_, ha⟩
    exact hb
  · intro hb
    obtain ⟨_, ha⟩ := hMem.2 ⟨_, hb⟩
    exact ha

end ContainerSet

namespace Registry

theorem containers_eq_ok_iff (g : Registry) (node : NodeId) (set : ContainerSet) :
    g.containers node = .ok set ↔ g.hosted.get? node = some set := by
  rw [containers]
  cases g.hosted.get? node <;> simp

/-! ## Changing the containers of a node -/

section Change

variable (g : Registry) (node : NodeId) (change : ContainerSet → ContainerSet)

theorem nodes_track_changeContainers :
    (g.track fun g => g.changeContainers node change).nodes = g.nodes := by
  rw [track, changeContainers]
  cases g.containers node <;> rfl

theorem get?_hosted_track_changeContainers (node' : NodeId) :
    (g.track fun g => g.changeContainers node change).hosted.get? node' =
      (g.hosted.get? node').map fun set => if node' = node then change set else set := by
  rw [track, changeContainers, containers]
  by_cases hNode : node' = node
  · subst hNode
    cases hHosted : g.hosted.get? node' <;> simp [Except.map, hHosted]
  · cases g.hosted.get? node <;> simp [Except.map, Table.get?_insert, hNode]

end Change

/-! ## Following reports -/

/-- The registry after a report that a manager took in. -/
def follow (g : Registry) (r : Report) : Registry :=
  g.track fun g =>
    if r.state = .deleted then g.removeContainer r.node r.container
    else g.addContainer r.node r.container

/-- The containers of a node after a report on it that a manager took in. -/
def hostedNow (set : ContainerSet) (r : Report) : ContainerSet :=
  if r.state = .deleted then set.erase r.container else set.insert r.container ()

theorem follow_eq (g : Registry) (r : Report) :
    g.follow r = g.track fun g => g.changeContainers r.node fun set => hostedNow set r := by
  unfold follow hostedNow
  split <;> rfl

theorem nodes_follow (g : Registry) (r : Report) : (g.follow r).nodes = g.nodes := by
  rw [follow_eq, nodes_track_changeContainers]

theorem get?_hosted_follow (g : Registry) (r : Report) (node : NodeId) :
    (g.follow r).hosted.get? node =
      (g.hosted.get? node).map fun set => if node = r.node then hostedNow set r else set := by
  rw [follow_eq, get?_hosted_track_changeContainers]

/-- After a report its container is hosted or not, as it says, and all others are as before. -/
theorem mem_keys_hostedNow (set : ContainerSet) (r : Report) (id : ContainerId) :
    id ∈ (hostedNow set r).keys ↔
      if id = r.container then r.state ≠ .deleted else id ∈ set.keys := by
  unfold hostedNow
  by_cases hDeleted : r.state = .deleted <;> by_cases hId : id = r.container <;>
    simp [hDeleted, hId, ContainerSet.mem_keys_insert, ContainerSet.mem_keys_erase]

end Registry

end ReplicaUpkeep
