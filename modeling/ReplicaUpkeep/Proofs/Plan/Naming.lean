import ReplicaUpkeep.Proofs.Plan.Usability

/-!
# Whom an evaluation names

A plan names nodes: as targets of closes and deletes, as pinned sources of copies, and the same for what is
withheld.  Whoever it names carries a replica of the snapshot, whatever the registry tells.  So a node
without a replica is left in peace.
-/

namespace ReplicaUpkeep

/-- The node is the target or the pinned source of something that a plan asks or withholds. -/
def Plan.Names (p : Plan) (node : NodeId) : Prop :=
  (∃ d ∈ p.directives, d.target = some node ∨ d.source = some node) ∨
    ∃ w ∈ p.withheld, w.node = some node

/-- The node is the target or the pinned source of something that an evaluation asks or withholds. -/
def Evaluation.Names (e : Evaluation) (node : NodeId) : Prop :=
  Plan.Names ⟨e.directives, e.withheld⟩ node

namespace Plan

variable {node : NodeId}

theorem names_append {p q : Plan} (h : (p ++ q).Names node) : p.Names node ∨ q.Names node := by
  rcases h with ⟨d, hd, hNode⟩ | ⟨w, hw, hNode⟩
  · rcases List.mem_append.1 hd with hFirst | hSecond
    · exact .inl (.inl ⟨d, hFirst, hNode⟩)
    · exact .inr (.inl ⟨d, hSecond, hNode⟩)
  · rcases List.mem_append.1 hw with hFirst | hSecond
    · exact .inl (.inr ⟨w, hFirst, hNode⟩)
    · exact .inr (.inr ⟨w, hSecond, hNode⟩)

theorem not_names_empty : ¬ Plan.empty.Names node := by
  rintro (⟨d, hd, -⟩ | ⟨w, hw, -⟩)
  · cases hd
  · cases hw

/-- Closing names its targets. -/
theorem mem_of_names_closing {lookup : NodeLookup} {id : ContainerId} {targets : List NodeId}
    {final : Bool} (h : (closing lookup id targets final).Names node) : node ∈ targets := by
  rcases h with ⟨d, hd, hNode⟩ | ⟨w, hw, hNode⟩
  · rw [directives_closing] at hd
    obtain ⟨n, hn, rfl⟩ := List.mem_map.1 hd
    rcases hNode with hTarget | hSource
    · obtain rfl : n = node := Option.some.inj hTarget
      exact (List.mem_filter.1 hn).1
    · cases hSource
  · obtain ⟨n, hn, reason, -, rfl⟩ := (mem_withheld_closing lookup id targets final w).1 hw
    obtain rfl : n = node := Option.some.inj hNode
    exact hn

/-- Copying names the sole member of the pool at most. -/
theorem exists_of_names_copying {lookup : NodeLookup} {s : Snapshot} {missing : Nat}
    (h : (copying lookup s missing).Names node) : ∃ r ∈ s.replicas, r.node = node := by
  rcases h with ⟨d, hd, hTarget | hSource⟩ | ⟨w, hw, hNode⟩
  · -- A copy has no target: where it is put is left to whoever carries it out.
    rw [copying] at hd
    split at hd
    · cases hd
    all_goals
      rw [List.eq_of_mem_replicate hd] at hTarget
      cases hTarget
  · obtain ⟨-, hPinned⟩ := mem_directives_copying hd
    obtain ⟨r, hPool, hNode⟩ := hPinned node hSource
    exact ⟨r, (isUsableSource_of_mem_sourcePool (hPool ▸ List.mem_singleton_self r)).1, hNode⟩
  · rw [copying] at hw
    split at hw
    · rw [List.eq_of_mem_replicate hw] at hNode
      cases hNode
    all_goals cases hw

/-- Pruning names nodes of sealed replicas. -/
theorem exists_of_names_pruning {lookup : NodeLookup} {s : Snapshot} {excess : Nat}
    (h : (pruning lookup s excess).Names node) : ∃ r ∈ s.replicas, r.node = node := by
  rcases h with ⟨d, hd, hNode⟩ | ⟨w, hw, hNode⟩
  · rw [directives_pruning] at hd
    obtain ⟨r, hr, rfl⟩ := List.mem_map.1 hd
    have hCandidate := (mem_candidates lookup s r).1 (mem_candidates_of_mem_chosen hr)
    rcases hNode with hTarget | hSource
    · exact ⟨r, hCandidate.1.1, Option.some.inj hTarget⟩
    · cases hSource
  · obtain ⟨r, hr, rfl⟩ := List.mem_map.1 hw
    exact ⟨r, ((s.mem_select .sealed r).1 (List.mem_filter.1 hr).1).1, Option.some.inj hNode⟩

end Plan

namespace Snapshot

variable {s : Snapshot} {lookup : NodeLookup} {node : NodeId}

theorem exists_of_names_part {kind : DirectiveKind} (h : (s.part lookup kind).Names node) :
    ∃ r ∈ s.replicas, r.node = node := by
  cases kind with
  | close =>
    obtain ⟨r, hr, hNode, -⟩ := s.exists_good_of_mem_closeTargets (Plan.mem_of_names_closing h)
    exact ⟨r, hr, hNode⟩
  | replicate =>
    rw [part] at h
    split at h
    · exact Plan.exists_of_names_copying h
    · exact absurd h Plan.not_names_empty
  | delete =>
    rw [part] at h
    split at h
    · exact Plan.exists_of_names_pruning h
    · exact absurd h Plan.not_names_empty

/-- Whoever an evaluation names carries a replica of the snapshot. -/
theorem exists_of_names_evaluate (h : (s.evaluate lookup).Names node) :
    ∃ r ∈ s.replicas, r.node = node := by
  change (Plan.of lookup s s.capacity s.ruling).Names node at h
  rw [plan_of_eq_parts] at h
  rcases Plan.names_append h with hFirst | hDelete
  · rcases Plan.names_append hFirst with hClose | hCopy
    · exact exists_of_names_part hClose
    · exact exists_of_names_part hCopy
  · exact exists_of_names_part hDelete

end Snapshot

end ReplicaUpkeep
