import ReplicaUpkeep.Proofs.Snapshot.Selection
import ReplicaUpkeep.Proofs.Verdict.Origins

/-!
# When a container may be closed for good

The verdict is computed from node lists, a maximum over all states and a table of origins.  Here it is
compared with a condition on the live replicas alone, in which none of these occurs: nobody writes,
enough replicas are known, a sealed replica is as far as any, and the sealed replicas that are as far
descend from different origins.  A verdict that is not stuck is exactly that condition.

The verdict names nodes and not replicas, so the nodes left to close are told apart by name only where
names are distinct; that is a hypothesis of the statements on `finalizeTargets` and of no other.
-/

namespace ReplicaUpkeep

/-- The live replicas prove one complete lineage, as far advanced as any copy. -/
structure Settled (factor : Nat) (live : List Replica) : Prop where
  noneWritable : ∀ r ∈ live, r.state ∉ ReplicaState.writable
  allReported : factor ≤ live.length
  latestSealed : ∃ r ∈ live, r.state ∈ ReplicaState.sealed ∧ r.IsLatestOf live
  originsDistinct : live.Pairwise (fun a b =>
    a.state ∈ ReplicaState.sealed → b.state ∈ ReplicaState.sealed →
      a.IsLatestOf live → b.IsLatestOf live → ∀ o, a.origin = some o → b.origin ≠ some o)

/-- The order of the replicas does not matter. -/
theorem Settled.perm {factor : Nat} {l m : List Replica} (h : l.Perm m) (hl : Settled factor l) :
    Settled factor m where
  noneWritable r hr := hl.noneWritable r (h.mem_iff.2 hr)
  allReported := h.length_eq ▸ hl.allReported
  latestSealed := by
    obtain ⟨r, hr, hSealed, hLatest⟩ := hl.latestSealed
    exact ⟨r, h.mem_iff.1 hr, hSealed, (r.isLatestOf_congr h).1 hLatest⟩
  originsDistinct := by
    have hm := (h.pairwise_iff (fun {a b} hab hb ha hb' ha' o ho ho' =>
      hab ha hb ha' hb' o ho' ho)).1 hl.originsDistinct
    refine hm.imp fun {a b} hab ha hb ha' hb' => ?_
    exact hab ha hb ((a.isLatestOf_congr h).2 ha') ((b.isLatestOf_congr h).2 hb')

namespace Snapshot

variable (s : Snapshot)

theorem blockingOpen_eq_any : s.verdict.blockingOpen = s.any .writable := by
  rw [Bool.eq_iff_iff, any, List.any_eq_true]
  simp [verdict, nodesOf, List.isEmpty_eq_false_iff_exists_mem, mem_select, -List.isEmpty_eq_false_iff]

/-- A verdict that is not stuck has passed all four checks. -/
theorem stuck_eq_false_iff_checks :
    s.verdict.stuck = false ↔
      s.any .writable = false ∧ s.factor ≤ s.size ∧ s.eligible ≠ [] ∧
        (Origins.ofReplicas s.eligible).isAmbiguous = false := by
  rw [← blockingOpen_eq_any]
  simp [verdict, and_assoc]

theorem stuck_of_any_writable (h : s.any .writable = true) : s.verdict.stuck = true := by
  cases hStuck : s.verdict.stuck with
  | true => rfl
  | false =>
    rw [(s.stuck_eq_false_iff_checks.1 hStuck).1] at h
    cases h

theorem mem_eligible (r : Replica) :
    r ∈ s.eligible ↔
      r ∈ s.replicas ∧ r.state ∈ ReplicaState.sealed ∧ r.IsLatestOf s.replicas := by
  rw [eligible, Selector.sealed, mem_select_both_atSequence]
  refine and_congr_right fun hr => and_congr_right fun _ => ?_
  exact s.sequence_eq_maxSequence_iff hr

/-- The origins of the eligible replicas are told apart among all live replicas. -/
theorem pairwise_eligible_iff (R : Replica → Replica → Prop) :
    s.eligible.Pairwise R ↔
      s.replicas.Pairwise (fun a b =>
        a.state ∈ ReplicaState.sealed → b.state ∈ ReplicaState.sealed →
          a.IsLatestOf s.replicas → b.IsLatestOf s.replicas → R a b) := by
  rw [eligible, select, List.pairwise_filter]
  -- What the selector says is known for replicas of the snapshot only.
  refine List.Pairwise.iff_of_mem fun {a b} ha hb => ?_
  have hSelects : ∀ r ∈ s.replicas,
      (Selector.sealed.both (.atSequence s.maxSequence)).selects r = true ↔
        r.state ∈ ReplicaState.sealed ∧ r.IsLatestOf s.replicas := by
    intro r hr
    have h := s.mem_eligible r
    rw [eligible, mem_select] at h
    simpa [hr] using h
  rw [hSelects a ha, hSelects b hb]
  constructor
  · intro h hsa hsb hla hlb
    exact h ⟨hsa, hla⟩ ⟨hsb, hlb⟩
  · rintro h ⟨hsa, hla⟩ ⟨hsb, hlb⟩
    exact h hsa hsb hla hlb

/-- The four checks say that the live replicas are settled. -/
theorem stuck_eq_false_iff_settled :
    s.verdict.stuck = false ↔ Settled s.factor s.replicas := by
  have hEligible : s.eligible ≠ [] ↔
      ∃ r ∈ s.replicas, r.state ∈ ReplicaState.sealed ∧ r.IsLatestOf s.replicas := by
    rw [← List.isEmpty_eq_false_iff, List.isEmpty_eq_false_iff_exists_mem]
    simp only [mem_eligible]
  rw [stuck_eq_false_iff_checks, any_writable_eq_false_iff, hEligible,
    Origins.isAmbiguous_ofReplicas_eq_false_iff_pairwise, pairwise_eligible_iff]
  constructor
  · rintro ⟨hNone, hFull, hLatest, hOrigins⟩
    exact ⟨hNone, hFull, hLatest, hOrigins⟩
  · rintro ⟨hNone, hFull, hLatest, hOrigins⟩
    exact ⟨hNone, hFull, hLatest, hOrigins⟩

/-- Where nodes are distinct, the nodes left to close are those of the eligible replicas that are not
closed. -/
theorem finalizeTargets_eq (h : (s.replicas.map Replica.node).Nodup) :
    s.verdict.finalizeTargets =
      (s.eligible.filter (fun r => r.state ≠ .closed)).map Replica.node := by
  simp only [Verdict.finalizeTargets, verdict, List.filter_map]
  congr 1
  refine List.filter_congr fun r hr => ?_
  -- The verdict takes closed nodes away by name; with distinct nodes these are the closed replicas.
  have hClosed : r.node ∈ (s.eligible.filter (fun r => r.state = .closed)).map Replica.node ↔
      r.state = .closed := by
    simp only [List.mem_map, List.mem_filter, decide_eq_true_eq]
    constructor
    · rintro ⟨q, ⟨hq, hqClosed⟩, hNode⟩
      have hEq : q = r := s.eq_of_node_eq h ((s.mem_eligible q).1 hq).1
        ((s.mem_eligible r).1 hr).1 hNode
      exact hEq ▸ hqClosed
    · intro hrClosed
      exact ⟨r, ⟨hr, hrClosed⟩, rfl⟩
  rw [Bool.eq_iff_iff]
  simp [← hClosed]

/-- The nodes left to close are those of the quasi-closed replicas that no other is ahead of. -/
theorem mem_finalizeTargets (h : (s.replicas.map Replica.node).Nodup) (n : NodeId) :
    n ∈ s.verdict.finalizeTargets ↔
      ∃ r ∈ s.replicas, r.node = n ∧ r.state = .quasiClosed ∧ r.IsLatestOf s.replicas := by
  rw [s.finalizeTargets_eq h]
  simp only [List.mem_map, List.mem_filter, mem_eligible, decide_eq_true_eq]
  constructor
  · rintro ⟨r, ⟨⟨hr, hSealed, hLatest⟩, hOpen⟩, hNode⟩
    have hState : r.state = .quasiClosed := by
      simpa [ReplicaState.sealed, hOpen] using hSealed
    exact ⟨r, hr, hNode, hState, hLatest⟩
  · rintro ⟨r, hr, hNode, hState, hLatest⟩
    refine ⟨r, ⟨⟨hr, ?_, hLatest⟩, ?_⟩, hNode⟩ <;> simp [hState, ReplicaState.sealed]

theorem finalizeTargets_ascending (h : (s.replicas.map Replica.node).Nodup) :
    s.verdict.finalizeTargets.Pairwise (· < ·) := by
  rw [s.finalizeTargets_eq h, List.pairwise_map]
  exact (s.node_lt_of_nodup h).sublist (List.filter_sublist.trans List.filter_sublist)

end Snapshot

/-- The verdict on a set of reported replicas is not stuck exactly when the live ones are settled.
The nodes that are then left to close are those of the quasi-closed replicas at the highest sequence,
in strictly ascending order. -/
theorem not_stuck_iff_settled (container : Container) (replicas : List Replica) :
    let live := replicas.filter (fun r => r.state ≠ .deleted)
    let verdict := (Snapshot.of container replicas).verdict
    (verdict.stuck = false ↔ Settled container.factor.toNat live) ∧
      ((live.map Replica.node).Nodup → verdict.stuck = false →
        verdict.finalizeTargets.Pairwise (· < ·) ∧
          ∀ n, n ∈ verdict.finalizeTargets ↔
            ∃ r ∈ live, r.node = n ∧ r.state = .quasiClosed ∧ r.IsLatestOf live) := by
  intro live verdict
  let s := Snapshot.of container replicas
  have hPerm : s.replicas.Perm live := Snapshot.perm_of container replicas
  refine ⟨?_, fun hNodup _ => ?_⟩
  · calc verdict.stuck = false
        ↔ Settled s.factor s.replicas := s.stuck_eq_false_iff_settled
      _ ↔ Settled container.factor.toNat live := ⟨.perm hPerm, .perm hPerm.symm⟩
  · have hNodes : (s.replicas.map Replica.node).Nodup :=
      (hPerm.map Replica.node).nodup_iff.2 hNodup
    refine ⟨s.finalizeTargets_ascending hNodes, fun n => ?_⟩
    calc n ∈ verdict.finalizeTargets
        ↔ ∃ r ∈ s.replicas, r.node = n ∧ r.state = .quasiClosed ∧ r.IsLatestOf s.replicas :=
          s.mem_finalizeTargets hNodes n
      _ ↔ ∃ r ∈ live, r.node = n ∧ r.state = .quasiClosed ∧ r.IsLatestOf live := by
          simp only [hPerm.mem_iff, Replica.isLatestOf_congr hPerm]

/-- One quasi-closed replica is left to close beside a closed one, an unhealthy one that lags behind,
and a deleted one that does not count although it was ahead. -/
theorem not_stuck_iff_settled_of_three :
    let container : Container := ⟨⟨1⟩, .quasiClosed, 3, 0⟩
    let replicas : List Replica :=
      [⟨"c", .quasiClosed, 12, some "o2", false⟩, ⟨"a", .closed, 12, some "o1", false⟩,
        ⟨"d", .deleted, 15, some "o1", false⟩, ⟨"b", .unhealthy, 4, none, false⟩]
    let live := replicas.filter (fun r => r.state ≠ .deleted)
    let verdict := (Snapshot.of container replicas).verdict
    (live.map Replica.node).Nodup ∧ verdict.stuck = false ∧
      verdict.finalizeTargets.Pairwise (· < ·) ∧
      ∀ n, n ∈ verdict.finalizeTargets ↔
        ∃ r ∈ live, r.node = n ∧ r.state = .quasiClosed ∧ r.IsLatestOf live := by
  intro container replicas live verdict
  have hNodes : (live.map Replica.node).Nodup := by decide
  have hStuck : verdict.stuck = false := by decide
  exact ⟨hNodes, hStuck, (not_stuck_iff_settled container replicas).2 hNodes hStuck⟩

end ReplicaUpkeep
