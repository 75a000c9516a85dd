import ReplicaUpkeep.Proofs.Plan.Conservation
import ReplicaUpkeep.Proofs.Plan.Survivors

/-!
# How many replicas a plan deletes

The planner of deletes takes from the front of its order until enough are taken, and passes over the
last good holder of the highest sequence.  So what it takes is counted exactly: all that are in excess, as
far as there are replicas that may be deleted, less one if no good holder lies beyond reach.  A holder
beyond reach is never a candidate and stays of itself, so that nobody has to be passed over for it.
-/

namespace ReplicaUpkeep

namespace Plan

/-- Where every holder stands in the list, one of them is passed over and nobody else. -/
theorem length_choose_of_all_holders {maxSequence : UInt64} {n holders : Nat} {l : List Replica}
    (hAll : l.countP (fun r => r.sequence = maxSequence) = holders) (hSome : 0 < holders) :
    (choose maxSequence n holders l).length = min n (l.length - 1) := by
  fun_induction choose maxSequence n holders l with
  | case1 => simp
  | case2 => simp
  | case3 n holders r rest hMax hLast ih =>
    -- This is the last holder; behind it nobody is passed over.
    rw [List.countP_cons_of_pos (by simpa using hMax)] at hAll
    rw [choose_eq_take (by omega), List.length_take, List.length_cons, Nat.add_sub_cancel]
  | case4 n holders r rest hMax hMore ih =>
    rw [List.countP_cons_of_pos (by simpa using hMax)] at hAll
    have hRest : 0 < rest.length := by
      have hCount : rest.countP (fun r => r.sequence = maxSequence) ≤ rest.length :=
        List.countP_le_length
      omega
    rw [List.length_cons, ih (by omega) (by omega), List.length_cons]
    omega
  | case5 n holders r rest hBehind ih =>
    rw [List.countP_cons_of_neg (by simpa using hBehind)] at hAll
    have hRest : 0 < rest.length := by
      have hCount : rest.countP (fun r => r.sequence = maxSequence) ≤ rest.length :=
        List.countP_le_length
      omega
    rw [List.length_cons, ih hAll hSome, List.length_cons]
    omega

end Plan

namespace Snapshot

/-- The replicas that may be deleted: the sealed ones within reach. -/
def deletable (s : Snapshot) (lookup : NodeLookup) : List Replica :=
  s.replicas.filter fun r => r.state ∈ ReplicaState.sealed ∧ lookup.Reaches r.node

/-- Replicas are in excess and nobody writes, at a stage where capacity is repaired. -/
structure MayDelete (s : Snapshot) : Prop where
  stage : s.container.state = .quasiClosed ∨ s.container.state = .closed
  quiet : ∀ r ∈ s.replicas, r.state ∉ ReplicaState.writable
  excess : s.factor < s.count .good

/-- Some good replica has the highest sequence, and all that have it may be deleted. -/
def HoldersWithinReach (s : Snapshot) (lookup : NodeLookup) : Prop :=
  (∃ r ∈ s.replicas, s.IsLatestHolder r) ∧
    ∀ r ∈ s.replicas, s.IsLatestHolder r → r ∈ s.deletable lookup

instance (s : Snapshot) (lookup : NodeLookup) : Decidable (s.HoldersWithinReach lookup) :=
  inferInstanceAs (Decidable (_ ∧ _))

/-- How many of the replicas that may be deleted have to stay. -/
def spared (s : Snapshot) (lookup : NodeLookup) : Nat :=
  if s.HoldersWithinReach lookup then 1 else 0

/-- The deletes of an evaluation go to these nodes, and are as many as can be. -/
structure DeletesExactly (s : Snapshot) (lookup : NodeLookup) (targets : List NodeId) : Prop where
  asked : (s.evaluate lookup).ofKind .delete = targets.map (Directive.delete s.id)
  distinct : targets.Nodup
  deletable : ∀ n ∈ targets, ∃ r ∈ s.deletable lookup, r.node = n
  number : targets.length =
    min (s.count .good - s.factor) ((s.deletable lookup).length - s.spared lookup)
  /-- A good holder of the highest sequence stays, if there was one. -/
  holder : (∃ r ∈ s.replicas, s.IsLatestHolder r) →
    ∃ r ∈ s.replicas, s.IsLatestHolder r ∧ r.node ∉ targets

variable (s : Snapshot) (lookup : NodeLookup)

theorem candidates_eq_deletable : Plan.candidates lookup s = s.deletable lookup := by
  rw [Plan.candidates, select, List.filter_filter, deletable]
  refine List.filter_congr fun r _ => ?_
  rw [Bool.eq_iff_iff, Bool.and_eq_true, decide_eq_true_eq, NodeLookup.any_canReceive_iff,
    Selector.sealed, Selector.selects_inStates_iff, and_comm]

theorem mem_deletable (r : Replica) :
    r ∈ s.deletable lookup ↔
      r ∈ s.replicas ∧ r.state ∈ ReplicaState.sealed ∧ lookup.Reaches r.node := by
  rw [deletable, List.mem_filter, decide_eq_true_eq]

/-- The holders of the highest sequence are those that may be deleted and those that may not. -/
theorem latestHolders_eq_add :
    Plan.latestHolders s =
      (s.deletable lookup).countP (fun r => r.sequence = s.maxSequence) +
        s.replicas.countP fun r => s.IsLatestHolder r ∧ r ∉ s.deletable lookup := by
  have hSealed : ∀ r ∈ s.deletable lookup, r.state ∈ ReplicaState.sealed := fun r hr =>
    ((s.mem_deletable lookup r).1 hr).2.1
  have hBeyond : s.replicas.countP (fun r => s.IsLatestHolder r ∧ r ∉ s.deletable lookup) =
      s.replicas.countP fun r => s.IsLatestHolder r &&
        !decide (r.state ∈ ReplicaState.sealed ∧ lookup.Reaches r.node) := by
    refine List.countP_congr fun r hr => ?_
    simp [mem_deletable, hr]
  rw [latestHolders_eq_countP, ← s.countP_isLatestHolder_of_sealed hSealed, hBeyond,
    ← List.countP_filter, deletable]
  exact List.countP_eq_countP_filter_add _ _ _

/-- Either all holders may be deleted and one of them is passed over, or nobody is. -/
theorem length_chosen (n : Nat) :
    (Plan.chosen lookup s n).length = min n ((s.deletable lookup).length - s.spared lookup) := by
  have hPerm := Plan.deletionOrder_perm (Plan.candidates lookup s)
  rw [candidates_eq_deletable] at hPerm
  have hHolders := s.latestHolders_eq_add lookup
  rw [← hPerm.countP_eq] at hHolders
  rw [Plan.chosen, candidates_eq_deletable, spared, ← hPerm.length_eq]
  split
  · rename_i hWithin
    obtain ⟨⟨r, hr, hHolder⟩, hAll⟩ := hWithin
    have hBeyond : s.replicas.countP (fun r => s.IsLatestHolder r ∧ r ∉ s.deletable lookup) = 0 :=
      List.countP_eq_zero.2 fun q hq => by simpa using hAll q hq
    have hSome : 0 < Plan.latestHolders s := by
      rw [latestHolders_eq_countP]
      exact List.countP_pos_iff.2 ⟨r, hr, by simpa using hHolder⟩
    exact Plan.length_choose_of_all_holders (by omega) hSome
  · rename_i hNotWithin
    have hNobody : Plan.latestHolders s = 0 ∨
        0 < s.replicas.countP fun r => s.IsLatestHolder r ∧ r ∉ s.deletable lookup := by
      by_cases hHeld : ∃ r ∈ s.replicas, s.IsLatestHolder r
      · obtain ⟨r, hr, hBeyond⟩ : ∃ r ∈ s.replicas, s.IsLatestHolder r ∧ r ∉ s.deletable lookup := by
          simpa [HoldersWithinReach, hHeld] using hNotWithin
        exact Or.inr (List.countP_pos_iff.2 ⟨r, hr, by simpa using hBeyond⟩)
      · rw [latestHolders_eq_countP]
        exact Or.inl (List.countP_eq_zero.2 (by simpa using hHeld))
    rw [Plan.choose_eq_take (by omega), List.length_take]
    rfl

variable {s}

theorem mayDelete_iff :
    s.MayDelete ↔ s.container.state.isRepairable = true ∧ s.any .writable = false ∧
      0 < s.capacity.excess := by
  have hExcess : 0 < s.capacity.excess ↔ s.factor < s.count .good := Nat.sub_pos_iff_lt
  rw [ContainerState.isRepairable_iff, any_writable_eq_false_iff, hExcess]
  exact ⟨fun h => ⟨h.stage, h.quiet, h.excess⟩, fun h => ⟨h.1, h.2.1, h.2.2⟩⟩

/-- Nothing is deleted unless it may be. -/
theorem dueToDelete_eq_nil_of_not_mayDelete (h : ¬ s.MayDelete) : s.dueToDelete lookup = [] := by
  by_contra hPlanned
  obtain ⟨hStage, hQuiet⟩ := allowed_of_dueToDelete_ne_nil hPlanned
  have hSome := List.length_pos_iff.2 hPlanned
  have hLength := s.length_dueToDelete_le lookup
  exact h (mayDelete_iff.2 ⟨hStage, hQuiet, by omega⟩)

/-- What may be deleted is deleted as far as it is in excess, one holder of the highest sequence
apart. -/
theorem deletesExactly (h : s.MayDelete) (hNodes : (s.replicas.map Replica.node).Nodup) :
    s.DeletesExactly lookup ((s.evaluate lookup).targetsOf .delete) := by
  obtain ⟨hStage, hQuiet, -⟩ := mayDelete_iff.1 h
  rw [targetsOf_delete]
  refine ⟨?_, ?_, fun n hn => ?_, ?_, fun hHeld => ?_⟩
  · rw [ofKind_evaluate, directives_part_delete, List.map_map]
    rfl
  · -- What goes is part of the snapshot, each replica once.
    obtain ⟨left, hLeft⟩ := s.exists_perm_dueToDelete_append lookup
    have hAll := (hLeft.map Replica.node).nodup_iff.2 hNodes
    rw [List.map_append] at hAll
    exact hAll.of_append_left
  · obtain ⟨r, hr, rfl⟩ := List.mem_map.1 hn
    have hCandidate := mem_candidates_of_mem_dueToDelete hr
    rw [candidates_eq_deletable] at hCandidate
    exact ⟨r, hCandidate, rfl⟩
  · rw [List.length_map, dueToDelete_eq_chosen hStage hQuiet, length_chosen]
    rfl
  · obtain ⟨r, hr, hHolder⟩ := s.exists_isLatestHolder_pruned lookup hNodes hHeld
    rw [replicas_pruned, List.mem_filter] at hr
    exact ⟨r, hr.1, hHolder, by simpa using hr.2⟩

end Snapshot

/-- Deletes are counted exactly.  Where nodes are distinct, replicas are in excess and nobody writes, the
deletes of an evaluation go to distinct nodes of replicas that may be deleted, and are as many as are in
excess or as may be deleted, whichever is less; one fewer may be deleted where some good replica has the
highest sequence and all that have it may.  A good holder of that sequence always stays.  Where nothing is
in excess, or somebody writes, or the stage is another one, there is no delete. -/
theorem deletes_counted_exactly (s : Snapshot) (lookup : NodeLookup) :
    ((s.replicas.map Replica.node).Nodup → s.MayDelete →
        s.DeletesExactly lookup ((s.evaluate lookup).targetsOf .delete)) ∧
      (¬ s.MayDelete → (s.evaluate lookup).ofKind .delete = []) := by
  refine ⟨fun hNodes h => Snapshot.deletesExactly lookup h hNodes, fun h => ?_⟩
  rw [Snapshot.ofKind_evaluate, Snapshot.directives_part_delete,
    Snapshot.dueToDelete_eq_nil_of_not_mayDelete lookup h, List.map_nil]

/-- Three of four good replicas are in excess, and three lie within reach, among them both holders of the
highest sequence; so two go. -/
theorem deletes_counted_exactly_of_four :
    let s := Snapshot.of ⟨⟨1⟩, .closed, 1, 10⟩
      [⟨"a", .closed, 10, some "a", false⟩, ⟨"b", .closed, 10, some "b", false⟩,
        ⟨"c", .quasiClosed, 4, some "c", false⟩, ⟨"d", .closed, 9, some "d", false⟩]
    let lookup : NodeLookup := fun n =>
      some ⟨.inService, if n = "d" then .dead else .healthy, none⟩
    (s.replicas.map Replica.node).Nodup ∧ s.MayDelete ∧ s.HoldersWithinReach lookup ∧
      (s.evaluate lookup).ofKind .delete = [.delete ⟨1⟩ "c", .delete ⟨1⟩ "a"] ∧
      ((s.evaluate lookup).targetsOf .delete).length = 2 ∧
      ∃ r ∈ s.replicas, s.IsLatestHolder r ∧ r.node ∉ (s.evaluate lookup).targetsOf .delete := by
  intro s lookup
  have hNodes : (s.replicas.map Replica.node).Nodup := by decide
  have hMay : s.MayDelete := ⟨Or.inr rfl, by decide, by decide⟩
  have hWithin : s.HoldersWithinReach lookup := by decide
  have hExact := (deletes_counted_exactly s lookup).1 hNodes hMay
  refine ⟨hNodes, hMay, hWithin, by decide, ?_, hExact.holder (by decide)⟩
  rw [hExact.number, Snapshot.spared, if_pos hWithin]
  decide

end ReplicaUpkeep
