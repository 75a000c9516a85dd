import ReplicaUpkeep.Proofs.Plan.Parts
import ReplicaUpkeep.Proofs.Plan.Pruning

/-!
# What deletes take and what they leave

A plan names nodes; what matters is the replicas that go and those that stay.  This module says which
replicas a plan deletes and what is left of the snapshot once all of them are gone.  Both lists
together are the old snapshot, so every count splits in two, and the highest sequence is the same
before and after.

A directive names a node, and a snapshot may list one node several times.  Where it does, a delete
takes one replica of its node, and it is not said which; where nodes are distinct that is the snapshot
without the named nodes.
-/

namespace ReplicaUpkeep

namespace ReplicaState

theorem mem_good_of_mem_sealed {state : ReplicaState} (h : state ∈ sealed) : state ∈ good := by
  cases state <;> revert h <;> decide

theorem mem_sealed_of_mem_good {state : ReplicaState} (hWritable : state ∉ writable)
    (h : state ∈ good) : state ∈ sealed := by
  cases state <;> revert hWritable h <;> decide

end ReplicaState

namespace Snapshot

/-- The replicas that the plan deletes, in the order of the plan. -/
def dueToDelete (s : Snapshot) (lookup : NodeLookup) : List Replica :=
  if s.container.state.isRepairable && !s.any .writable then
    Plan.chosen lookup s s.capacity.excess
  else []

/-- The replicas that may be left when each of the deletes took one replica of its node. -/
def LeftBy (s : Snapshot) (targets : List NodeId) (left : List Replica) : Prop :=
  ∃ gone : List Replica,
    (gone.map Replica.node).Perm targets ∧ (gone ++ left).Perm s.replicas

/-- The snapshot without the nodes that the plan deletes from. -/
def pruned (s : Snapshot) (lookup : NodeLookup) : Snapshot :=
  s.without ((s.evaluate lookup).targetsOf .delete)

/-- The replica is good and has the highest sequence. -/
def IsLatestHolder (s : Snapshot) (r : Replica) : Prop :=
  r.state ∈ ReplicaState.good ∧ r.sequence = s.maxSequence

instance (s : Snapshot) (r : Replica) : Decidable (s.IsLatestHolder r) :=
  inferInstanceAs (Decidable (_ ∧ _))

theorem latestHolders_eq_countP (s : Snapshot) :
    Plan.latestHolders s = s.replicas.countP (fun r => s.IsLatestHolder r) := by
  rw [Plan.latestHolders, count_eq_countP]
  refine List.countP_congr fun r _ => ?_
  rw [Selector.good, Selector.selects_both_atSequence_iff, decide_eq_true_eq]
  rfl

/-- Among sealed replicas the sequence alone tells who holds the latest data. -/
theorem countP_isLatestHolder_of_sealed (s : Snapshot) {l : List Replica}
    (h : ∀ r ∈ l, r.state ∈ ReplicaState.sealed) :
    l.countP (fun r => s.IsLatestHolder r) = l.countP (fun r => r.sequence = s.maxSequence) := by
  refine List.countP_congr fun r hr => ?_
  have hGood : r.state ∈ ReplicaState.good := ReplicaState.mem_good_of_mem_sealed (h r hr)
  simp [IsLatestHolder, hGood]

section Taken

variable (s : Snapshot) (lookup : NodeLookup)

theorem directives_part_delete :
    (s.part lookup .delete).directives =
      (s.dueToDelete lookup).map (fun r => .delete s.id r.node) := by
  cases hOver : s.capacity.isOver with
  | true =>
    simp only [part, dueToDelete, hOver, Bool.and_true]
    split
    · exact Plan.directives_pruning lookup s s.capacity.excess
    · rfl
  | false =>
    -- Without an excess nothing is chosen, so it makes no difference that nobody is asked to choose.
    have hExcess : s.capacity.excess = 0 := by
      simp only [Capacity.isOver, decide_eq_false_iff_not] at hOver
      unfold Capacity.excess
      omega
    simp [part, dueToDelete, hOver, hExcess, Plan.chosen, Plan.choose, Plan.empty]

theorem targetsOf_delete :
    (s.evaluate lookup).targetsOf .delete = (s.dueToDelete lookup).map Replica.node := by
  rw [Evaluation.targetsOf, ofKind_evaluate, directives_part_delete, List.filterMap_map]
  exact congrFun List.filterMap_eq_map _

theorem replicas_pruned :
    (s.pruned lookup).replicas =
      s.replicas.filter (fun r => !((s.dueToDelete lookup).map Replica.node).contains r.node) := by
  rw [pruned, targetsOf_delete]
  rfl

variable {s lookup}

theorem dueToDelete_eq_nil (h : s.any .writable = true) : s.dueToDelete lookup = [] := by
  simp [dueToDelete, h]

theorem allowed_of_dueToDelete_ne_nil (h : s.dueToDelete lookup ≠ []) :
    s.container.state.isRepairable = true ∧ s.any .writable = false := by
  rw [dueToDelete] at h
  split at h
  · simp_all
  · exact absurd rfl h

theorem dueToDelete_eq_chosen (hStage : s.container.state.isRepairable = true)
    (hQuiet : s.any .writable = false) :
    s.dueToDelete lookup = Plan.chosen lookup s s.capacity.excess := by
  simp [dueToDelete, hStage, hQuiet]

theorem mem_candidates_of_mem_dueToDelete {r : Replica} (h : r ∈ s.dueToDelete lookup) :
    r ∈ Plan.candidates lookup s := by
  rw [dueToDelete] at h
  split at h
  · exact Plan.mem_candidates_of_mem_chosen h
  · cases h

theorem isSealed_of_mem_dueToDelete {r : Replica} (h : r ∈ s.dueToDelete lookup) :
    r.state ∈ ReplicaState.sealed :=
  ((Plan.mem_candidates lookup s r).1 (mem_candidates_of_mem_dueToDelete h)).1.2

variable (s lookup)

theorem length_dueToDelete_le : (s.dueToDelete lookup).length ≤ s.capacity.excess := by
  rw [dueToDelete]
  split
  · exact Plan.length_choose_le _ _ _ _
  · exact Nat.zero_le _

/-- One of the good holders of the highest sequence is never deleted. -/
theorem countP_isLatestHolder_dueToDelete_le :
    (s.dueToDelete lookup).countP (fun r => s.IsLatestHolder r) ≤ Plan.latestHolders s - 1 := by
  rw [s.countP_isLatestHolder_of_sealed fun r hr => isSealed_of_mem_dueToDelete hr, dueToDelete]
  split
  · exact Plan.countP_latest_choose_le _ _ _ _
  · exact Nat.zero_le _

/-- What is deleted is part of the snapshot, each replica once. -/
theorem exists_perm_dueToDelete_append :
    ∃ left, (s.dueToDelete lookup ++ left).Perm s.replicas := by
  rw [dueToDelete]
  split
  · obtain ⟨spared, hSpared⟩ :=
      (Plan.choose_sublist s.maxSequence s.capacity.excess (Plan.latestHolders s)
        (Plan.deletionOrder (Plan.candidates lookup s))).exists_perm_append
    obtain ⟨others, hOthers⟩ := (Plan.candidates_sublist lookup s).exists_perm_append
    have hChosen : (Plan.chosen lookup s s.capacity.excess ++ spared).Perm
        (Plan.candidates lookup s) :=
      hSpared.symm.trans (Plan.deletionOrder_perm _)
    -- Candidates that were passed over stay, and so do those that never were candidates.
    refine ⟨spared ++ others, ?_⟩
    rw [← List.append_assoc]
    exact (hChosen.append_right others).trans hOthers.symm
  · exact ⟨s.replicas, List.Perm.refl _⟩

end Taken

section Left

variable (s : Snapshot) (lookup : NodeLookup)

theorem pruned_eq_self (h : s.dueToDelete lookup = []) : s.pruned lookup = s := by
  rw [pruned, targetsOf_delete, h]
  cases s
  simp [without]

theorem exists_leftBy : ∃ left, s.LeftBy ((s.evaluate lookup).targetsOf .delete) left := by
  obtain ⟨left, hLeft⟩ := s.exists_perm_dueToDelete_append lookup
  refine ⟨left, s.dueToDelete lookup, ?_, hLeft⟩
  rw [targetsOf_delete]

/-- Deletes never leave fewer good replicas than wanted, whichever replica of its node each takes. -/
theorem factor_le_of_leftBy {left : List Replica} (hPlanned : s.dueToDelete lookup ≠ [])
    (hLeft : s.LeftBy ((s.evaluate lookup).targetsOf .delete) left) :
    s.factor ≤ left.countP Selector.good.selects := by
  obtain ⟨gone, hGone, hPerm⟩ := hLeft
  rw [targetsOf_delete] at hGone
  have hLength : gone.length = (s.dueToDelete lookup).length := by
    simpa using hGone.length_eq
  have hTaken : gone.countP Selector.good.selects ≤ gone.length := List.countP_le_length
  have hCount : gone.countP Selector.good.selects + left.countP Selector.good.selects =
      s.count .good := by
    rw [count_eq_countP, ← hPerm.countP_eq, List.countP_append]
  have hExcess := s.length_dueToDelete_le lookup
  have hSome : 0 < (s.dueToDelete lookup).length := List.length_pos_iff.2 hPlanned
  simp only [Capacity.excess, capacity] at hExcess
  omega

variable (hNodes : (s.replicas.map Replica.node).Nodup)
include hNodes

/-- What goes and what stays are the old snapshot. -/
theorem dueToDelete_append_pruned_perm :
    (s.dueToDelete lookup ++ (s.pruned lookup).replicas).Perm s.replicas := by
  obtain ⟨left, hLeft⟩ := s.exists_perm_dueToDelete_append lookup
  have hDistinct : ((s.dueToDelete lookup ++ left).map Replica.node).Nodup :=
    (hLeft.map Replica.node).nodup_iff.2 hNodes
  rw [List.map_append, List.nodup_append] at hDistinct
  have hApart := hDistinct.2.2
  -- Leaving out the named nodes takes all that goes and, nodes being distinct, nothing else.
  let stays : Replica → Bool :=
    fun r => !((s.dueToDelete lookup).map Replica.node).contains r.node
  have hGone : (s.dueToDelete lookup).filter stays = [] := by
    refine List.filter_eq_nil_iff.2 fun r hr => ?_
    simpa [stays] using ⟨r, hr, rfl⟩
  have hKept : left.filter stays = left := by
    refine List.filter_eq_self.2 fun r hr => ?_
    have hOther : ∀ q ∈ s.dueToDelete lookup, q.node ≠ r.node := fun q hq =>
      hApart _ (List.mem_map_of_mem hq) _ (List.mem_map_of_mem hr)
    simpa [stays] using hOther
  have hPruned : left.Perm (s.pruned lookup).replicas := by
    have h := hLeft.filter stays
    rwa [List.filter_append, hGone, hKept, List.nil_append, ← replicas_pruned] at h
  exact (hPruned.symm.append_left _).trans hLeft

theorem leftBy_pruned :
    s.LeftBy ((s.evaluate lookup).targetsOf .delete) (s.pruned lookup).replicas := by
  refine ⟨s.dueToDelete lookup, ?_, s.dueToDelete_append_pruned_perm lookup hNodes⟩
  rw [targetsOf_delete]

theorem countP_dueToDelete_add_countP_pruned (p : Replica → Bool) :
    (s.dueToDelete lookup).countP p + (s.pruned lookup).replicas.countP p =
      s.replicas.countP p := by
  rw [← List.countP_append]
  exact (s.dueToDelete_append_pruned_perm lookup hNodes).countP_eq p

theorem mem_pruned (r : Replica) :
    r ∈ (s.pruned lookup).replicas ↔ r ∈ s.replicas ∧ r ∉ s.dueToDelete lookup := by
  have hPerm := s.dueToDelete_append_pruned_perm lookup hNodes
  have hDistinct := (hPerm.nodup_iff).2 hNodes.of_map
  have hMem := hPerm.mem_iff (a := r)
  rw [List.mem_append] at hMem
  rw [List.nodup_append] at hDistinct
  rw [← hMem]
  constructor
  · intro hr
    exact ⟨Or.inr hr, fun hGone => hDistinct.2.2 r hGone r hr rfl⟩
  · rintro ⟨hr, hKept⟩
    exact hr.resolve_left hKept

/-- The planner counts holders, and the snapshot splits into what goes and what stays; so a holder is
among those that stay. -/
theorem exists_isLatestHolder_pruned (h : ∃ r ∈ s.replicas, s.IsLatestHolder r) :
    ∃ r ∈ (s.pruned lookup).replicas, s.IsLatestHolder r := by
  have hSome : 0 < Plan.latestHolders s := by
    rw [latestHolders_eq_countP, List.countP_pos_iff]
    simpa using h
  have hSplit := s.countP_dueToDelete_add_countP_pruned lookup hNodes
    (fun r => s.IsLatestHolder r)
  have hGone := s.countP_isLatestHolder_dueToDelete_le lookup
  rw [← latestHolders_eq_countP] at hSplit
  have hLeft : 0 < (s.pruned lookup).replicas.countP (fun r => s.IsLatestHolder r) := by omega
  simpa using List.countP_pos_iff.1 hLeft

theorem maxSequence_pruned : (s.pruned lookup).maxSequence = s.maxSequence := by
  by_cases hEmpty : s.replicas = []
  · simp [maxSequence, replicas_pruned, hEmpty]
  · -- A replica at the highest sequence that is not good is never deleted; of the good ones one stays.
    have hTop : ∃ r ∈ (s.pruned lookup).replicas, r.sequence = s.maxSequence := by
      obtain ⟨r, hr, hMax⟩ := s.exists_sequence_eq_maxSequence hEmpty
      by_cases hGood : r.state ∈ ReplicaState.good
      · obtain ⟨q, hq, hHolder⟩ := s.exists_isLatestHolder_pruned lookup hNodes ⟨r, hr, hGood, hMax⟩
        exact ⟨q, hq, hHolder.2⟩
      · have hKept : r ∉ s.dueToDelete lookup := fun h =>
          hGood (ReplicaState.mem_good_of_mem_sealed (isSealed_of_mem_dueToDelete h))
        exact ⟨r, (s.mem_pruned lookup hNodes r).2 ⟨hr, hKept⟩, hMax⟩
    obtain ⟨r, hr, hMax⟩ := hTop
    obtain ⟨q, hq, hOld⟩ :=
      (s.pruned lookup).exists_sequence_eq_maxSequence (List.ne_nil_of_mem hr)
    refine Std.le_antisymm ?_ ?_
    · rw [← hOld]
      exact s.sequence_le_maxSequence ((s.mem_pruned lookup hNodes q).1 hq).1
    · rw [← hMax]
      exact (s.pruned lookup).sequence_le_maxSequence hr

end Left

end Snapshot

end ReplicaUpkeep
