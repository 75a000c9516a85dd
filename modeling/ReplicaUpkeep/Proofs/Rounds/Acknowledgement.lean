import ReplicaUpkeep.Proofs.Verdict.Finality

/-!
# Closes that are carried out

The control plane only asks for closes; the nodes carry them out and report back.  A replica that took
writes then stops taking them, and one that had stopped is closed for good.  Its data do not change, so
neither do sequence and origin.

What this module proves is that closing disturbs no verdict.  Once nobody writes any more, the same
replicas are eligible before and after, whichever of them were closed meanwhile.
-/

namespace ReplicaUpkeep

namespace ReplicaState

/-- The stage of a replica whose node has carried out a close. -/
def afterClose : ReplicaState → ReplicaState
  | .opened | .closing => .quasiClosed
  | .quasiClosed => .closed
  | state => state

theorem afterClose_notMem_writable (state : ReplicaState) : state.afterClose ∉ writable := by
  cases state <;> decide

theorem afterClose_ne_deleted {state : ReplicaState} (h : state ≠ .deleted) :
    state.afterClose ≠ .deleted := by
  cases state <;> revert h <;> decide

theorem afterClose_mem_sealed_iff {state : ReplicaState} (h : state ∉ writable) :
    state.afterClose ∈ sealed ↔ state ∈ sealed := by
  cases state <;> revert h <;> decide

theorem afterClose_eq_closed {state : ReplicaState} (h : state ∈ sealed) :
    state.afterClose = .closed := by
  cases state <;> revert h <;> decide

end ReplicaState

namespace Replica

/-- The replica once the nodes that were asked have carried out their closes. -/
def acknowledged (asked : List NodeId) (r : Replica) : Replica :=
  if r.node ∈ asked then { r with state := r.state.afterClose } else r

variable (asked : List NodeId) (r : Replica)

@[simp]
theorem node_acknowledged : (r.acknowledged asked).node = r.node := by
  unfold acknowledged
  split <;> rfl

@[simp]
theorem sequence_acknowledged : (r.acknowledged asked).sequence = r.sequence := by
  unfold acknowledged
  split <;> rfl

@[simp]
theorem origin_acknowledged : (r.acknowledged asked).origin = r.origin := by
  unfold acknowledged
  split <;> rfl

theorem acknowledged_nil : acknowledged [] = id := by
  funext r
  simp [acknowledged]

variable {asked r}

theorem state_acknowledged_of_mem (h : r.node ∈ asked) :
    (r.acknowledged asked).state = r.state.afterClose := by
  rw [acknowledged, if_pos h]

theorem acknowledged_of_notMem (h : r.node ∉ asked) : r.acknowledged asked = r := by
  rw [acknowledged, if_neg h]

end Replica

namespace Snapshot

/-- The snapshot once the nodes that were asked have carried out their closes. -/
def acknowledge (s : Snapshot) (asked : List NodeId) : Snapshot where
  container := s.container
  replicas := s.replicas.map (Replica.acknowledged asked)
  live := by
    intro r hr
    obtain ⟨q, hq, rfl⟩ := List.mem_map.1 hr
    by_cases hAsked : q.node ∈ asked
    · rw [Replica.state_acknowledged_of_mem hAsked]
      exact ReplicaState.afterClose_ne_deleted (s.live q hq)
    · rw [Replica.acknowledged_of_notMem hAsked]
      exact s.live q hq
  ordered := by
    rw [List.pairwise_map]
    simpa using s.ordered

variable (s : Snapshot) (asked : List NodeId)

theorem acknowledge_nil : s.acknowledge [] = s := by
  cases s
  simp [acknowledge, Replica.acknowledged_nil]

theorem mem_acknowledge (r : Replica) :
    r ∈ (s.acknowledge asked).replicas ↔ ∃ q ∈ s.replicas, q.acknowledged asked = r :=
  List.mem_map

theorem map_node_acknowledge :
    (s.acknowledge asked).replicas.map Replica.node = s.replicas.map Replica.node := by
  simp [acknowledge, Function.comp_def]

theorem maxSequence_acknowledge : (s.acknowledge asked).maxSequence = s.maxSequence := by
  simp [maxSequence, acknowledge, List.foldl_map]

/-- Whoever still takes writes afterwards took them before and was not asked. -/
theorem mem_writable_acknowledge {r : Replica} (hr : r ∈ (s.acknowledge asked).replicas)
    (hWritable : r.state ∈ ReplicaState.writable) : r ∈ s.replicas ∧ r.node ∉ asked := by
  obtain ⟨q, hq, rfl⟩ := (s.mem_acknowledge asked r).1 hr
  by_cases hAsked : q.node ∈ asked
  · rw [Replica.state_acknowledged_of_mem hAsked] at hWritable
    exact absurd hWritable (ReplicaState.afterClose_notMem_writable _)
  · rw [Replica.acknowledged_of_notMem hAsked]
    exact ⟨hq, hAsked⟩

section Quiet

variable (hQuiet : s.any .writable = false)
include hQuiet

theorem any_writable_acknowledge : (s.acknowledge asked).any .writable = false := by
  rw [any_writable_eq_false_iff] at hQuiet ⊢
  intro r hr hWritable
  exact hQuiet r (s.mem_writable_acknowledge asked hr hWritable).1 hWritable

/-- Closing does not change which replicas are eligible. -/
theorem eligible_acknowledge :
    (s.acknowledge asked).eligible = s.eligible.map (Replica.acknowledged asked) := by
  rw [eligible, eligible, maxSequence_acknowledge, select, select, acknowledge, List.filter_map]
  congr 1
  refine List.filter_congr fun r hr => ?_
  have hWritable := s.any_writable_eq_false_iff.1 hQuiet r hr
  -- Where nobody writes, a close only takes a replica from one sealed stage to the other.
  have hSealed : (r.acknowledged asked).state ∈ ReplicaState.sealed ↔
      r.state ∈ ReplicaState.sealed := by
    by_cases hAsked : r.node ∈ asked
    · rw [Replica.state_acknowledged_of_mem hAsked]
      exact ReplicaState.afterClose_mem_sealed_iff hWritable
    · rw [Replica.acknowledged_of_notMem hAsked]
  rw [Bool.eq_iff_iff]
  simp [Selector.sealed, Selector.selects_both_atSequence_iff, hSealed]

/-- Nor does it change the verdict, which is made of sequences and origins then. -/
theorem stuck_acknowledge : (s.acknowledge asked).verdict.stuck = s.verdict.stuck := by
  have hStuck : (s.acknowledge asked).verdict.stuck = false ↔ s.verdict.stuck = false := by
    rw [stuck_eq_false_iff_checks, stuck_eq_false_iff_checks,
      s.any_writable_acknowledge asked hQuiet, s.eligible_acknowledge asked hQuiet,
      Origins.isAmbiguous_ofReplicas_eq_false_iff_pairwise,
      Origins.isAmbiguous_ofReplicas_eq_false_iff_pairwise, List.pairwise_map]
    simp [hQuiet, size, acknowledge, factor]
  rw [Bool.eq_iff_iff, ← not_iff_not]
  simpa using hStuck

end Quiet

end Snapshot

end ReplicaUpkeep
