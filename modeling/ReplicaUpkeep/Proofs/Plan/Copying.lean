import ReplicaUpkeep.Plan.Copying
import ReplicaUpkeep.Proofs.Snapshot.Selection

/-!
# Where copies come from

Whatever tier wins, each replica of the pool is a live replica whose node answers and may serve as a
source, and no copy is asked for while the pool is empty.
-/

namespace ReplicaUpkeep.Plan

theorem isUsableSource_iff (lookup : NodeLookup) (r : Replica) :
    isUsableSource lookup r = true ↔
      ∃ status, lookup r.node = some status ∧ status.health ≠ .dead ∧
        status.operational ≠ .decommissioned := by
  simp [isUsableSource, Option.any_eq_true, NodeStatus.canSource]

/-- The pool holds usable replicas only. -/
theorem isUsableSource_of_mem_sourcePool {lookup : NodeLookup} {s : Snapshot} {r : Replica}
    (h : r ∈ sourcePool lookup s) : r ∈ s.replicas ∧ isUsableSource lookup r = true := by
  have hTier : ∀ f : Selector, r ∈ (s.select f).filter (isUsableSource lookup) →
      r ∈ s.replicas ∧ isUsableSource lookup r = true := by
    intro f hr
    obtain ⟨hSelected, hUsable⟩ := List.mem_filter.1 hr
    exact ⟨((s.mem_select f r).1 hSelected).1, hUsable⟩
  rw [sourcePool] at h
  split at h
  · exact hTier _ h
  · split at h
    · exact hTier _ h
    · exact hTier _ (List.mem_filter.1 h).1

/-- A copy is asked for only from a pool that is not empty, and pinned only to its sole member. -/
theorem mem_directives_copying {lookup : NodeLookup} {s : Snapshot} {missing : Nat} {d : Directive}
    (h : d ∈ (copying lookup s missing).directives) :
    (∃ r, r ∈ sourcePool lookup s) ∧
      ∀ n, d.source = some n → ∃ r, sourcePool lookup s = [r] ∧ r.node = n := by
  rw [copying] at h
  split at h
  · simp at h
  · rename_i only hPool
    rw [hPool, List.eq_of_mem_replicate h]
    exact ⟨⟨only, List.mem_singleton_self only⟩, fun n hn => ⟨only, rfl, Option.some.inj hn⟩⟩
  · rename_i hEmpty hSeveral
    rw [List.eq_of_mem_replicate h]
    exact ⟨List.exists_mem_of_ne_nil _ hEmpty, fun n hn => by cases hn⟩

end ReplicaUpkeep.Plan
