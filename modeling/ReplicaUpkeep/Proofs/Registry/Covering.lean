import ReplicaUpkeep.Proofs.Image.Rearrangement

/-!
# No live replica goes unnoticed

The store knows which nodes have live replicas of a container, and the registry which containers a node
is believed to host.  Neither looks at the other, and several operations change only one of them.  The
registry *covers* the store if the set of a registered node holds every container with a live replica
there; it may hold others.  This is so for every image that is built, and every change either touches both
in step, or takes live replicas away, or leaves the sets alone.

Replicas on nodes that are not registered are of no concern: such a node has no set.
-/

namespace ReplicaUpkeep

namespace Store

/-- The snapshot of the container shows a live replica on the node. -/
def LiveOn (s : Store) (id : ContainerId) (node : NodeId) : Prop :=
  ∃ snapshot r, s.snapshot id = .ok snapshot ∧ r ∈ snapshot.replicas ∧ r.node = node

/-- A replica is live exactly if it has a record and was not reported as deleted. -/
theorem liveOn_iff (s : Store) (id : ContainerId) (node : NodeId) :
    s.LiveOn id node ↔ ∃ record, s.record? id node = some record ∧ record.state ≠ .deleted := by
  constructor
  · rintro ⟨snapshot, r, hSnapshot, hMem, rfl⟩
    obtain ⟨e, hEntry, rfl⟩ := (s.snapshot_eq_ok_iff id snapshot).1 hSnapshot
    obtain ⟨record, hRecord, hReads, hLive⟩ := (mem_snapshotOf_iff e r).1 hMem
    refine ⟨record, (record?_of_get? hEntry r.node).trans hRecord, fun hDeleted => hLive ?_⟩
    rw [← hReads, Record.state_toReplica_of_deleted hDeleted]
  · rintro ⟨record, hRecord, hLive⟩
    obtain ⟨e, hEntry, hOwn⟩ := Option.bind_eq_some_iff.1 hRecord
    refine ⟨snapshotOf e, record.toReplica node, (s.snapshot_eq_ok_iff id _).2 ⟨e, hEntry, rfl⟩,
      (mem_snapshotOf_iff e _).2 ⟨record, hOwn, rfl, ?_⟩, rfl⟩
    show (if _ then ReplicaState.unhealthy else record.state) ≠ .deleted
    split
    · decide
    · exact hLive

/-- What does not report on a replica makes none live. -/
theorem LiveOn.of_apply {s s' : Store} {op : Operation} (hApply : s.apply op = .ok s')
    {id : ContainerId} {node : NodeId} (hSilent : op.reportsOn id node = [])
    (h : s'.LiveOn id node) : op.drops id node = false ∧ s.LiveOn id node := by
  rw [liveOn_iff, record?_apply hApply, hSilent, Record.afterReports_nil] at h
  obtain ⟨record, hRecord, hLive⟩ := h
  split at hRecord
  · cases hRecord
  · rename_i hKept
    exact ⟨Bool.eq_false_iff.2 hKept, (s.liveOn_iff id node).2 ⟨record, hRecord, hLive⟩⟩

/-- A replica that was just reported is live unless it was reported as deleted. -/
theorem LiveOn.state_of_report {s s' : Store} {r : Report} (hReport : s.report r = .ok s')
    (h : s'.LiveOn r.container r.node) : r.state ≠ .deleted := by
  have hApply : s.apply (.report r) = .ok s' := hReport
  have hOn : (Operation.report r).reportsOn r.container r.node = [r] := by
    simp [Operation.reportsOn]
  rw [liveOn_iff, record?_apply hApply, hOn] at h
  obtain ⟨record, hRecord, hLive⟩ := h
  cases hRecord
  exact hLive

end Store

namespace Registry

section Status

variable (g : Registry) (node : NodeId) (change : NodeStatus → NodeStatus)

/-- A change of status leaves every set as it is. -/
theorem hosted_track_changeStatus :
    (g.track fun g => (g.changeStatus node change).map Prod.snd).hosted = g.hosted := by
  simp only [track, changeStatus]
  cases g.nodes.get? node <;> rfl

/-- A change of status registers nobody and forgets nobody. -/
theorem isSome_get?_nodes_track_changeStatus (node' : NodeId) :
    ((g.track fun g => (g.changeStatus node change).map Prod.snd).nodes.get? node').isSome =
      (g.nodes.get? node').isSome := by
  simp only [track, changeStatus]
  cases hInfo : g.nodes.get? node with
  | none => rfl
  | some info =>
    simp only [Except.map, Table.get?_insert]
    by_cases hNode : node' = node <;> simp [hNode, hInfo]

end Status

/-- The nodes with a set are those that are registered, and the set of a node holds every container with a
live replica on it. -/
structure Covers (g : Registry) (s : Store) : Prop where
  listed : ∀ node, (g.hosted.get? node).isSome = (g.nodes.get? node).isSome
  covered : ∀ id node set, s.LiveOn id node → g.hosted.get? node = some set → id ∈ set.keys

namespace Covers

variable {g : Registry} {s s' : Store} (h : g.Covers s)
include h

/-- A report that is accepted changes store and set in step. -/
theorem report {r : Report} (hReport : s.report r = .ok s') : (g.follow r).Covers s' where
  listed node := by
    rw [get?_hosted_follow, nodes_follow, Option.isSome_map]
    exact h.listed node
  covered id node set hLive hSet := by
    rw [get?_hosted_follow, Option.map_eq_some_iff] at hSet
    obtain ⟨old, hOld, rfl⟩ := hSet
    by_cases hOwn : id = r.container ∧ node = r.node
    · obtain ⟨rfl, rfl⟩ := hOwn
      rw [if_pos rfl, mem_keys_hostedNow, if_pos rfl]
      exact hLive.state_of_report hReport
    · have hApply : s.apply (.report r) = .ok s' := hReport
      have hBefore : id ∈ old.keys :=
        h.covered id node old (hLive.of_apply hApply (if_neg hOwn)).2 hOld
      by_cases hNode : node = r.node
      · rw [if_pos hNode, mem_keys_hostedNow, if_neg fun hId => hOwn ⟨hId, hNode⟩]
        exact hBefore
      · rw [if_neg hNode]
        exact hBefore

/-- A node that leaves is forgotten by both. -/
theorem evict (node : NodeId) : (g.removeNode node).Covers (s.evict node).2 where
  listed node' := by
    simp only [removeNode, Table.get?_erase]
    split
    · rfl
    · exact h.listed node'
  covered id node' set hLive hSet := by
    have hApply : s.apply (.evict node) = .ok (s.evict node).2 := rfl
    simp only [removeNode, Table.get?_erase] at hSet
    split at hSet
    · cases hSet
    · exact h.covered id node' set (hLive.of_apply hApply rfl).2 hSet

/-- What only changes the store and reports nothing cannot add a live replica. -/
theorem step {op : Store.Operation} (hSilent : ∀ id node, op.reportsOn id node = []) :
    g.Covers (s.step op) := by
  rw [Store.step]
  cases hApply : s.apply op with
  | error fault => exact h
  | ok s' =>
    refine ⟨h.listed, fun id node set hLive hSet => ?_⟩
    exact h.covered id node set (hLive.of_apply hApply (hSilent id node)).2 hSet

/-- The status of a node has no part in it. -/
theorem changeStatus (node : NodeId) (change : NodeStatus → NodeStatus) :
    (g.track fun g => (g.changeStatus node change).map Prod.snd).Covers s where
  listed node' := by
    rw [hosted_track_changeStatus, isSome_get?_nodes_track_changeStatus]
    exact h.listed node'
  covered id node' set hLive hSet := by
    rw [hosted_track_changeStatus] at hSet
    exact h.covered id node' set hLive hSet

end Covers

/-- Whatever an image is built into, its registry covers its store. -/
theorem covers_of_build {image : ClusterImage} {s : Store} {g : Registry}
    (h : image.build = .ok (s, g)) : g.Covers s where
  listed node := by rw [ClusterImage.get?_hosted_build h, Option.isSome_map]
  covered id node set hLive hSet := by
    rw [ClusterImage.get?_hosted_build h, Option.map_eq_some_iff] at hSet
    obtain ⟨_, -, rfl⟩ := hSet
    obtain ⟨record, hRecord, -⟩ := (s.liveOn_iff id node).1 hLive
    rw [ClusterImage.mem_keys_hostedAfter]
    -- Without any report there would be no record.
    intro hNone
    rw [ClusterImage.record?_build h, hNone] at hRecord
    cases hRecord

end Registry

end ReplicaUpkeep
