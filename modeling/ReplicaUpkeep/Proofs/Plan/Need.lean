import ReplicaUpkeep.Proofs.Plan.Copying
import ReplicaUpkeep.Proofs.Plan.Deletion
import ReplicaUpkeep.Queue

/-!
# What a container needs

An evaluation tells how many repairs of each kind a container needs, and whether it has to wait for
them.  The plan never asks for more than is needed, and asks nothing of other containers.  A container
that is not repaired at its stage, or has as many good replicas as wanted, needs nothing and does not
wait; no container needs copies and deletes at once.
-/

namespace ReplicaUpkeep

theorem Capacity.missing_pos_iff (c : Capacity) : 0 < c.missing ↔ c.isUnder = true := by
  simp only [Capacity.missing, Capacity.isUnder, decide_eq_true_eq]
  omega

theorem Capacity.excess_pos_iff (c : Capacity) : 0 < c.excess ↔ c.isOver = true := by
  simp only [Capacity.excess, Capacity.isOver, decide_eq_true_eq]
  omega

theorem Capacity.isOver_eq_false_of_isUnder {c : Capacity} (h : c.isUnder = true) :
    c.isOver = false := by
  simp only [Capacity.isUnder, Capacity.isOver, decide_eq_true_eq, decide_eq_false_iff_not] at h ⊢
  omega

namespace Evaluation

/-- A container on its way out is not repaired. -/
theorem isRepairable_eq_false_of_isBeingDeleted {e : Evaluation}
    (h : e.container.state.isBeingDeleted = true) : e.isRepairable = false := by
  unfold isRepairable
  revert h
  cases e.container.state <;> simp [ContainerState.isBeingDeleted, ContainerState.isRepairable]

/-- How many repairs an imbalance calls for. -/
def needed (e : Evaluation) (i : Imbalance) : Nat :=
  if e.isRepairable then
    match i with
    | .shortage => e.capacity.missing
    | .surplus => e.capacity.excess
  else 0

/-- The container as it has to wait for repair, if it is off balance at a repairable stage. -/
def waiter? (e : Evaluation) : Option Waiter :=
  if e.isRepairable then
    if e.capacity.isUnder then some ⟨e.id, .shortage, UInt32.ofNat e.capacity.good⟩
    else if e.capacity.isOver then some ⟨e.id, .surplus, 0⟩
    else none
  else none

/-- Is the container off balance at a repairable stage? -/
def isOffBalance (e : Evaluation) : Bool :=
  e.isRepairable && decide (e.capacity.good ≠ e.capacity.factor)

/-- An evaluation that is about one container and asks for no more repairs than are needed. -/
structure Regular (e : Evaluation) : Prop where
  container : e.capacity.container = e.id
  own : ∀ d ∈ e.directives, d.container = e.id
  within : ∀ i : Imbalance, (e.ofKind i.repair).length ≤ e.needed i

theorem container_of_waiter? {e : Evaluation} {w : Waiter} (h : e.waiter? = some w) :
    w.container = e.id := by
  unfold waiter? at h
  split at h
  · split at h
    · cases h
      rfl
    · split at h
      · cases h
        rfl
      · cases h
  · cases h

/-- A container waits exactly if it is off balance. -/
theorem isSome_waiter? (e : Evaluation) : e.waiter?.isSome = e.isOffBalance := by
  unfold waiter? isOffBalance
  cases e.isRepairable with
  | false => rfl
  | true =>
    simp only [if_true, Bool.true_and, Capacity.isUnder, Capacity.isOver, decide_eq_true_eq]
    split
    · rename_i hUnder
      simp [Nat.ne_of_lt hUnder]
    · split
      · rename_i hOver
        simp [Nat.ne_of_gt hOver]
      · rename_i hNotUnder hNotOver
        simp [Nat.le_antisymm (Nat.le_of_not_lt hNotOver) (Nat.le_of_not_lt hNotUnder)]

/-- A container waits with an imbalance exactly if it needs repairs for it. -/
theorem needed_pos_iff (e : Evaluation) (i : Imbalance) :
    0 < e.needed i ↔ ∃ w, e.waiter? = some w ∧ w.imbalance = i := by
  have hMissing := Capacity.missing_pos_iff e.capacity
  have hExcess := Capacity.excess_pos_iff e.capacity
  have hOne := Capacity.isOver_eq_false_of_isUnder (c := e.capacity)
  unfold needed waiter?
  by_cases hStage : e.isRepairable = true
  · cases hUnder : e.capacity.isUnder with
    | true => cases i <;> simp_all
    | false => cases hOver : e.capacity.isOver <;> cases i <;> simp_all
  · cases i <;> simp [hStage]

/-- What does not wait with an imbalance needs nothing for it. -/
theorem needed_eq_zero {e : Evaluation} {i : Imbalance}
    (h : ∀ w, e.waiter? = some w → w.imbalance ≠ i) : e.needed i = 0 := by
  by_contra hNeeded
  obtain ⟨w, hWaiter, hImbalance⟩ := (e.needed_pos_iff i).1 (Nat.pos_of_ne_zero hNeeded)
  exact h w hWaiter hImbalance

theorem Regular.ofKind_eq_nil {e : Evaluation} (hRegular : e.Regular) {i : Imbalance}
    (h : ∀ w, e.waiter? = some w → w.imbalance ≠ i) : e.ofKind i.repair = [] := by
  have hLength := hRegular.within i
  rw [needed_eq_zero h] at hLength
  exact List.length_eq_zero_iff.1 (Nat.le_zero.1 hLength)

/-- All repairs of a container are for the one imbalance that it waits with. -/
theorem Regular.repairs_eq {e : Evaluation} (hRegular : e.Regular) :
    e.ofKind .replicate ++ e.ofKind .delete =
      e.waiter?.elim [] fun w => e.ofKind w.imbalance.repair := by
  have hNone : ∀ i : Imbalance, (∀ w, e.waiter? = some w → w.imbalance ≠ i) →
      e.ofKind i.repair = [] := fun i => hRegular.ofKind_eq_nil
  cases hWaiter : e.waiter? with
  | none =>
    have hCopies : e.ofKind .replicate = [] := hNone .shortage (by simp [hWaiter])
    have hDeletes : e.ofKind .delete = [] := hNone .surplus (by simp [hWaiter])
    rw [hCopies, hDeletes]
    rfl
  | some w =>
    rw [Option.elim_some]
    cases hImbalance : w.imbalance with
    | shortage =>
      have hDeletes : e.ofKind .delete = [] := hNone .surplus (by simp [hWaiter, hImbalance])
      rw [hDeletes, List.append_nil]
      rfl
    | surplus =>
      have hCopies : e.ofKind .replicate = [] := hNone .shortage (by simp [hWaiter, hImbalance])
      rw [hCopies, List.nil_append]
      rfl

end Evaluation

namespace Plan

theorem length_directives_copying_le (lookup : NodeLookup) (s : Snapshot) (missing : Nat) :
    (copying lookup s missing).directives.length ≤ missing := by
  rw [copying]
  split <;> simp

theorem container_of_mem_copying {lookup : NodeLookup} {s : Snapshot} {missing : Nat}
    {d : Directive} (h : d ∈ (copying lookup s missing).directives) : d.container = s.id := by
  rw [copying] at h
  split at h
  · cases h
  · rw [List.eq_of_mem_replicate h]
    rfl
  · rw [List.eq_of_mem_replicate h]
    rfl

end Plan

namespace Snapshot

variable (s : Snapshot) (lookup : NodeLookup)

/-- A plan asks nothing of another container. -/
theorem container_of_mem_part {kind : DirectiveKind} {d : Directive}
    (h : d ∈ (s.part lookup kind).directives) : d.container = s.id := by
  cases kind with
  | close =>
    obtain ⟨a, -, rfl⟩ := List.mem_map.1 h
    rfl
  | replicate =>
    rw [part] at h
    split at h
    · exact Plan.container_of_mem_copying h
    · cases h
  | delete =>
    rw [directives_part_delete] at h
    obtain ⟨r, -, rfl⟩ := List.mem_map.1 h
    rfl

theorem length_part_repair_le (i : Imbalance) :
    (s.part lookup i.repair).directives.length ≤ (s.evaluate lookup).needed i := by
  have hStage : (s.evaluate lookup).isRepairable = s.container.state.isRepairable := rfl
  cases i with
  | shortage =>
    simp only [Imbalance.repair, part]
    split
    · rename_i hAsked
      rw [Bool.and_eq_true] at hAsked
      rw [Evaluation.needed, hStage, if_pos hAsked.1]
      exact Plan.length_directives_copying_le lookup s s.capacity.missing
    · exact Nat.zero_le _
  | surplus =>
    simp only [Imbalance.repair, directives_part_delete, List.length_map]
    by_cases hAllowed : s.container.state.isRepairable = true
    · rw [Evaluation.needed, hStage, if_pos hAllowed]
      exact s.length_dueToDelete_le lookup
    · simp [dueToDelete, hAllowed]

theorem regular_evaluate : (s.evaluate lookup).Regular where
  container := rfl
  own := fun d hd => s.container_of_mem_part lookup ((s.mem_directives_evaluate lookup d).1 hd)
  within := by
    intro i
    rw [ofKind_evaluate]
    exact s.length_part_repair_le lookup i

end Snapshot

end ReplicaUpkeep
