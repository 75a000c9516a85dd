import Mathlib.Data.List.Nodup
import ReplicaUpkeep.Snapshot

/-!
# What a selection holds

Every decision selects replicas by state, some of them at one sequence as well.  Membership in such a
selection is stated here once, in terms of the replicas themselves, together with the facts on the
order of a snapshot and on its highest sequence that the decisions rest on.  None of them needs the
nodes to be distinct, unless it says so.
-/

namespace ReplicaUpkeep

/-- No replica of the list is ahead of this one. -/
def Replica.IsLatestOf (r : Replica) (replicas : List Replica) : Prop :=
  ∀ q ∈ replicas, q.sequence ≤ r.sequence

theorem Replica.isLatestOf_congr {l m : List Replica} (h : l.Perm m) (r : Replica) :
    r.IsLatestOf l ↔ r.IsLatestOf m := by
  simp only [IsLatestOf, h.mem_iff]

namespace Selector

theorem selects_inStates_iff (states : List ReplicaState) (r : Replica) :
    (inStates states).selects r = true ↔ r.state ∈ states := by
  simp [selects]

theorem selects_atSequence_iff (sequence : UInt64) (r : Replica) :
    (atSequence sequence).selects r = true ↔ r.sequence = sequence := by
  simp [selects]

/-- Selecting by state and sequence at once. -/
theorem selects_both_atSequence_iff (states : List ReplicaState) (sequence : UInt64) (r : Replica) :
    ((inStates states).both (.atSequence sequence)).selects r = true ↔
      r.state ∈ states ∧ r.sequence = sequence := by
  rw [selects_both, Bool.and_eq_true, selects_inStates_iff, selects_atSequence_iff]

end Selector

namespace Snapshot

variable (s : Snapshot)

theorem mem_select (f : Selector) (r : Replica) :
    r ∈ s.select f ↔ r ∈ s.replicas ∧ f.selects r = true :=
  List.mem_filter

theorem mem_select_inStates (states : List ReplicaState) (r : Replica) :
    r ∈ s.select (.inStates states) ↔ r ∈ s.replicas ∧ r.state ∈ states := by
  rw [mem_select, Selector.selects_inStates_iff]

theorem mem_select_both_atSequence (states : List ReplicaState) (sequence : UInt64) (r : Replica) :
    r ∈ s.select ((Selector.inStates states).both (.atSequence sequence)) ↔
      r ∈ s.replicas ∧ r.state ∈ states ∧ r.sequence = sequence := by
  rw [mem_select, Selector.selects_both_atSequence_iff]

theorem count_eq_countP (f : Selector) : s.count f = s.replicas.countP f.selects :=
  List.countP_eq_length_filter.symm

theorem any_inStates_iff (states : List ReplicaState) :
    s.any (.inStates states) = true ↔ ∃ r ∈ s.replicas, r.state ∈ states := by
  simp only [any, List.any_eq_true, Selector.selects_inStates_iff]

/-- Nobody writes any more. -/
theorem any_writable_eq_false_iff :
    s.any .writable = false ↔ ∀ r ∈ s.replicas, r.state ∉ ReplicaState.writable := by
  rw [← Bool.not_eq_true, Selector.writable, any_inStates_iff]
  simp

theorem mem_nodesOf (f : Selector) (n : NodeId) :
    n ∈ s.nodesOf f ↔ ∃ r ∈ s.select f, r.node = n :=
  List.mem_map

/-- A snapshot holds the live replicas that it was made of. -/
theorem perm_of (container : Container) (replicas : List Replica) :
    (Snapshot.of container replicas).replicas.Perm
      (replicas.filter (fun r => r.state ≠ .deleted)) :=
  Order.perm_sortBy _ _

/-- The replicas at the highest sequence are those that no other is ahead of. -/
theorem sequence_eq_maxSequence_iff {r : Replica} (hr : r ∈ s.replicas) :
    r.sequence = s.maxSequence ↔ r.IsLatestOf s.replicas := by
  constructor
  · intro h q hq
    exact h ▸ s.sequence_le_maxSequence hq
  · intro h
    obtain ⟨q, hq, hMax⟩ := s.exists_sequence_eq_maxSequence (List.ne_nil_of_mem hr)
    exact Std.le_antisymm (s.sequence_le_maxSequence hr) (hMax ▸ h q hq)

/-- Distinct nodes stand in strictly ascending order. -/
theorem node_lt_of_nodup (h : (s.replicas.map Replica.node).Nodup) :
    s.replicas.Pairwise (fun a b => a.node < b.node) := by
  have hne : s.replicas.Pairwise (fun a b => a.node ≠ b.node) := List.pairwise_map.1 h
  refine (s.ordered.and hne).imp fun hab => ?_
  exact Std.lt_of_le_of_ne hab.1 hab.2

/-- Where nodes are distinct, a node names one replica. -/
theorem eq_of_node_eq (h : (s.replicas.map Replica.node).Nodup) {a b : Replica}
    (ha : a ∈ s.replicas) (hb : b ∈ s.replicas) (hab : a.node = b.node) : a = b :=
  List.inj_on_of_nodup_map h ha hb hab

end Snapshot

end ReplicaUpkeep
