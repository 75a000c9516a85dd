import ReplicaUpkeep.Proofs.Registry.Hosting

/-!
# Runs of a registry

The details of nodes and their containers are kept apart, and most operations reach only one of the two.
A run applies operations one after another; a refused one changes nothing.  What an accepted operation
does is one equation for each of the two: the entry of its own node changes, and no other entry does.  So
whatever was done, the nodes with details are those with containers, and each is kept under its own name.

From this it follows that a node is known in every respect or in none.  It also makes listing and looking
up agree, although the one goes over all details and the other reads one entry.
-/

namespace ReplicaUpkeep

namespace Registry

/-- An operation on a registry. -/
inductive Operation where
  | addNode (info : NodeInfo)
  | removeNode (node : NodeId)
  | updateNode (info : NodeInfo)
  | setHealth (node : NodeId) (health : NodeHealth)
  | setOperational (node : NodeId) (operational : OperationalState) (expiry : Option Timestamp)
  | addContainer (node : NodeId) (id : ContainerId)
  | setContainers (node : NodeId) (set : ContainerSet)
  | removeContainer (node : NodeId) (id : ContainerId)

namespace Operation

/-- The node that the operation is about. -/
def node : Operation → NodeId
  | .addNode info | .updateNode info => info.id
  | .removeNode node | .setHealth node _ | .setOperational node _ _ => node
  | .addContainer node _ | .setContainers node _ | .removeContainer node _ => node

/-- Is the operation one for nodes that are registered already? -/
def needsNode : Operation → Bool
  | .addNode _ | .removeNode _ => false
  | _ => true

/-- What becomes of the details of the operation's node. -/
def details : Operation → Option NodeInfo → Option NodeInfo
  | .addNode info, _ | .updateNode info, _ => some info
  | .removeNode _, _ => none
  | .setHealth _ health, old =>
    old.map fun info => { info with status := { info.status with health } }
  | .setOperational _ operational expiry, old =>
    old.map fun info => { info with status := { info.status with operational, expiry } }
  | .addContainer _ _, old | .setContainers _ _, old | .removeContainer _ _, old => old

/-- What becomes of the containers of the operation's node. -/
def hosting : Operation → Option ContainerSet → Option ContainerSet
  | .addNode _, _ => some .empty
  | .removeNode _, _ => none
  | .addContainer _ id, old => old.map fun set => set.insert id ()
  | .setContainers _ set, old => old.map fun _ => set
  | .removeContainer _ id, old => old.map fun set => set.erase id
  | .updateNode _, old | .setHealth _ _, old | .setOperational _ _ _, old => old

end Operation

/-- The registry after an operation, if the operation is not refused. -/
def apply (g : Registry) : Operation → Except Error Registry
  | .addNode info => g.addNode info
  | .removeNode node => .ok (g.removeNode node)
  | .updateNode info => g.updateNode info
  | .setHealth node health => (g.setHealth node health).map Prod.snd
  | .setOperational node operational expiry =>
    (g.setOperational node operational expiry).map Prod.snd
  | .addContainer node id => g.addContainer node id
  | .setContainers node set => g.setContainers node set
  | .removeContainer node id => g.removeContainer node id

/-- The registry after an operation; a refused one leaves it alone. -/
def step (g : Registry) (op : Operation) : Registry :=
  g.track fun g => g.apply op

/-- The registry after operations in turn. -/
def run (g : Registry) (operations : List Operation) : Registry :=
  operations.foldl step g

/-- Why an operation is refused, if it is. -/
def refusal? (g : Registry) : Operation → Option Error
  | .addNode info => if g.nodes.contains info.id then some (.nodeExists info.id) else none
  | .removeNode _ => none
  | op => if g.nodes.contains op.node then none else some (.nodeNotFound op.node)

/-- What an operation makes of a registry: of its own node what it says, of the others nothing. -/
structure Changes (g : Registry) (op : Operation) (g' : Registry) : Prop where
  nodes : ∀ node, g'.nodes.get? node =
    if node = op.node then op.details (g.nodes.get? node) else g.nodes.get? node
  hosted : ∀ node, g'.hosted.get? node =
    if node = op.node then op.hosting (g.hosted.get? node) else g.hosted.get? node

/-- The nodes with details are those with containers, and each is kept under its own name. -/
structure Consistent (g : Registry) : Prop where
  listed : ∀ node, (g.hosted.get? node).isSome = (g.nodes.get? node).isSome
  own : ∀ node info, g.nodes.get? node = some info → info.id = node

/-! ## When an operation succeeds, and what it leaves -/

section Operations

variable (g g' : Registry) (node : NodeId)

theorem addNode_eq_ok_iff (info : NodeInfo) :
    g.addNode info = .ok g' ↔ g.nodes.get? info.id = none ∧
      { nodes := g.nodes.insert info.id info, hosted := g.hosted.insert info.id .empty } = g' := by
  rw [addNode, Table.contains]
  cases g.nodes.get? info.id <;> simp

theorem updateNode_eq_ok_iff (info : NodeInfo) :
    g.updateNode info = .ok g' ↔ (g.nodes.get? info.id).isSome = true ∧
      { g with nodes := g.nodes.insert info.id info } = g' := by
  rw [updateNode, Table.contains]
  cases g.nodes.get? info.id <;> simp

theorem changeStatus_eq_ok_iff (change : NodeStatus → NodeStatus) (status : NodeStatus) :
    g.changeStatus node change = .ok (status, g') ↔ ∃ info, g.nodes.get? node = some info ∧
      change info.status = status ∧
        { g with nodes := g.nodes.insert node { info with status } } = g' := by
  rw [changeStatus]
  cases g.nodes.get? node with
  | none => simp
  | some info =>
    simp only [Except.ok.injEq, Prod.mk.injEq, Option.some.injEq, exists_eq_left']
    exact and_congr_right fun hStatus => by rw [hStatus]

theorem changeStatus_eq_error_iff (change : NodeStatus → NodeStatus) (fault : Error) :
    (g.changeStatus node change).map Prod.snd = .error fault ↔
      g.nodes.get? node = none ∧ fault = .nodeNotFound node := by
  rw [changeStatus]
  cases g.nodes.get? node <;> simp [Except.map, eq_comm]

theorem changeContainers_eq_ok_iff (change : ContainerSet → ContainerSet) :
    g.changeContainers node change = .ok g' ↔ ∃ set, g.hosted.get? node = some set ∧
      { g with hosted := g.hosted.insert node (change set) } = g' := by
  rw [changeContainers, containers]
  cases g.hosted.get? node <;> simp [Except.map]

end Operations

section Changes

variable {g g' : Registry} {op : Operation}

/-- Giving a node another status changes its details alone. -/
theorem changes_of_changeStatus {change : NodeStatus → NodeStatus}
    (hDetails : ∀ old, op.details old =
      old.map fun info => { info with status := change info.status })
    (hHosting : ∀ old, op.hosting old = old)
    (h : (g.changeStatus op.node change).map Prod.snd = .ok g') : g.Changes op g' := by
  cases hDone : g.changeStatus op.node change with
  | error fault =>
    rw [hDone] at h
    cases h
  | ok done =>
    rw [hDone] at h
    cases h
    obtain ⟨info, hInfo, hStatus, hLeft⟩ :=
      (changeStatus_eq_ok_iff g done.2 op.node change done.1).1 hDone
    rw [← hLeft]
    refine ⟨fun node => ?_, fun node => ?_⟩
    · rw [Table.get?_insert, hDetails]
      by_cases hNode : node = op.node
      · rw [if_pos hNode, if_pos hNode, hNode, hInfo, Option.map_some, hStatus]
      · rw [if_neg hNode, if_neg hNode]
    · rw [hHosting, ite_self]

/-- Giving a node another set changes its containers alone. -/
theorem changes_of_changeContainers {change : ContainerSet → ContainerSet}
    (hDetails : ∀ old, op.details old = old) (hHosting : ∀ old, op.hosting old = old.map change)
    (h : g.changeContainers op.node change = .ok g') : g.Changes op g' := by
  obtain ⟨set, hSet, rfl⟩ := (changeContainers_eq_ok_iff g g' op.node change).1 h
  refine ⟨fun node => ?_, fun node => ?_⟩
  · rw [hDetails, ite_self]
  · rw [Table.get?_insert, hHosting]
    by_cases hNode : node = op.node
    · rw [if_pos hNode, if_pos hNode, hNode, hSet, Option.map_some]
    · rw [if_neg hNode, if_neg hNode]

/-- What an operation that succeeds does. -/
theorem changes_of_apply (h : g.apply op = .ok g') : g.Changes op g' := by
  cases op with
  | addNode info =>
    obtain ⟨-, rfl⟩ := (addNode_eq_ok_iff g g' info).1 h
    exact ⟨fun node => Table.get?_insert _ _ _ _, fun node => Table.get?_insert _ _ _ _⟩
  | removeNode node' =>
    cases h
    exact ⟨fun node => Table.get?_erase _ _ _, fun node => Table.get?_erase _ _ _⟩
  | updateNode info =>
    obtain ⟨-, rfl⟩ := (updateNode_eq_ok_iff g g' info).1 h
    exact ⟨fun node => Table.get?_insert _ _ _ _, fun node => (ite_self _).symm⟩
  | setHealth node health => exact changes_of_changeStatus (fun _ => rfl) (fun _ => rfl) h
  | setOperational node operational expiry =>
    exact changes_of_changeStatus (fun _ => rfl) (fun _ => rfl) h
  | addContainer node id => exact changes_of_changeContainers (fun _ => rfl) (fun _ => rfl) h
  | setContainers node set => exact changes_of_changeContainers (fun _ => rfl) (fun _ => rfl) h
  | removeContainer node id => exact changes_of_changeContainers (fun _ => rfl) (fun _ => rfl) h

end Changes

/-! ## Details and containers go together -/

theorem consistent_empty : empty.Consistent :=
  ⟨fun _ => rfl, fun _ _ h => nomatch h⟩

namespace Operation

/-- Details that an operation leaves are those of its node, if they were before. -/
theorem id_of_details {op : Operation} {old : Option NodeInfo}
    (hOld : ∀ info, old = some info → info.id = op.node) {info : NodeInfo}
    (h : op.details old = some info) : info.id = op.node := by
  cases op with
  | addNode _ | updateNode _ =>
    cases h
    rfl
  | removeNode _ => cases h
  | setHealth _ _ | setOperational _ _ _ =>
    obtain ⟨before, hBefore, rfl⟩ := Option.map_eq_some_iff.1 h
    exact hOld before hBefore
  | addContainer _ _ | setContainers _ _ | removeContainer _ _ => exact hOld info h

end Operation

namespace Consistent

variable {g g' : Registry} (h : g.Consistent)
include h

theorem get?_hosted_eq_none_iff (node : NodeId) :
    g.hosted.get? node = none ↔ g.nodes.get? node = none := by
  rw [← Option.isNone_iff_eq_none, ← Option.isNone_iff_eq_none, ← Option.not_isSome,
    ← Option.not_isSome, h.listed]

/-- One operation keeps details and containers together. -/
theorem apply {op : Operation} (hApply : g.apply op = .ok g') : g'.Consistent := by
  have hChanges := changes_of_apply hApply
  refine ⟨fun node => ?_, fun node info hInfo => ?_⟩
  · rw [hChanges.hosted, hChanges.nodes]
    by_cases hNode : node = op.node
    · subst hNode
      rw [if_pos rfl, if_pos rfl]
      cases op with
      | addNode info | removeNode node => rfl
      | updateNode info =>
        -- A node that is not registered would get details and no containers.
        exact (h.listed _).trans ((updateNode_eq_ok_iff g g' info).1 hApply).1
      | setHealth _ _ | setOperational _ _ _ => exact (h.listed _).trans (Option.isSome_map).symm
      | addContainer _ _ | setContainers _ _ | removeContainer _ _ =>
        exact Option.isSome_map.trans (h.listed _)
    · rw [if_neg hNode, if_neg hNode]
      exact h.listed node
  · rw [hChanges.nodes] at hInfo
    split at hInfo
    · rename_i hNode
      rw [hNode]
      exact Operation.id_of_details (fun before hBefore => hNode ▸ h.own node before hBefore) hInfo
    · exact h.own node info hInfo

theorem step (op : Operation) : (g.step op).Consistent := by
  rw [Registry.step, track]
  split
  · rename_i hApply
    exact h.apply hApply
  · exact h

theorem run (operations : List Operation) : (g.run operations).Consistent := by
  induction operations generalizing g with
  | nil => exact h
  | cons op rest ih => exact ih (h.step op)

/-! ## When an operation is refused -/

theorem changeContainers_eq_error_iff (node : NodeId) (change : ContainerSet → ContainerSet)
    (fault : Error) :
    g.changeContainers node change = .error fault ↔
      g.nodes.get? node = none ∧ fault = .nodeNotFound node := by
  rw [← h.get?_hosted_eq_none_iff, changeContainers, containers]
  cases g.hosted.get? node <;> simp [Except.map, eq_comm]

/-- An operation is refused for its stated reason, and for no other. -/
theorem apply_eq_error_iff (op : Operation) (fault : Error) :
    g.apply op = .error fault ↔ g.refusal? op = some fault := by
  have hUnknown : ∀ node, (if g.nodes.contains node then none else some (Error.nodeNotFound node)) =
      some fault ↔ g.nodes.get? node = none ∧ fault = .nodeNotFound node := by
    intro node
    rw [Table.contains]
    cases g.nodes.get? node <;> simp [eq_comm]
  cases op with
  | addNode info =>
    rw [Registry.apply, addNode, refusal?]
    split <;> simp
  | removeNode node => simp [Registry.apply, refusal?]
  | updateNode info =>
    refine Iff.trans ?_ (hUnknown info.id).symm
    rw [Registry.apply, updateNode, Table.contains]
    cases g.nodes.get? info.id <;> simp [eq_comm]
  | setHealth node health => exact (changeStatus_eq_error_iff _ _ _ _).trans (hUnknown node).symm
  | setOperational node operational expiry =>
    exact (changeStatus_eq_error_iff _ _ _ _).trans (hUnknown node).symm
  | addContainer node id => exact (h.changeContainers_eq_error_iff _ _ _).trans (hUnknown node).symm
  | setContainers node set => exact (h.changeContainers_eq_error_iff _ _ _).trans (hUnknown node).symm
  | removeContainer node id =>
    exact (h.changeContainers_eq_error_iff _ _ _).trans (hUnknown node).symm

end Consistent

end Registry

end ReplicaUpkeep
