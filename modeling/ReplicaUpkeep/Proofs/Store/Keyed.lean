import ReplicaUpkeep.Proofs.Store.Run

/-!
# Containers under their own numbers

A store finds each container under its number.  Operations keep it so, whatever they are.
-/

namespace ReplicaUpkeep

namespace Store

/-- Every container is stored under its own number. -/
def Keyed (s : Store) : Prop :=
  ∀ id e, s.entries.get? id = some e → e.container.id = id

theorem keyed_empty : empty.Keyed := by
  intro id e h
  cases h

theorem Keyed.put {s : Store} (h : s.Keyed) {id : ContainerId} {e : StoreEntry}
    (hOwn : e.container.id = id) : (s.put id e).Keyed := by
  intro id' e' hEntry
  rw [Store.put, Table.get?_insert] at hEntry
  split at hEntry
  · rename_i hId
    cases hEntry
    rw [hOwn, hId]
  · exact h id' e' hEntry

theorem Keyed.report {s s' : Store} (h : s.Keyed) {r : Report} (hReport : s.report r = .ok s') :
    s'.Keyed := by
  obtain ⟨e, hEntry, -, rfl⟩ := (report_eq_ok_iff s s' r).1 hReport
  exact h.put (h r.container e hEntry)

theorem Keyed.evict {s : Store} (h : s.Keyed) (node : NodeId) : (s.evict node).2.Keyed := by
  intro id e hEntry
  rw [Store.evict, Table.get?_map, Option.map_eq_some_iff] at hEntry
  obtain ⟨old, hOld, rfl⟩ := hEntry
  exact h id old hOld

theorem Keyed.apply {s s' : Store} (h : s.Keyed) {op : Operation} (hApply : s.apply op = .ok s') :
    s'.Keyed := by
  cases op with
  | add c =>
    obtain ⟨-, rfl⟩ := (add_eq_ok_iff s s' c).1 hApply
    exact h.put rfl
  | setState id state =>
    obtain ⟨e, hEntry, rfl⟩ := (setState_eq_ok_iff s s' id state).1 hApply
    exact h.put (h id e hEntry)
  | setSequence id sequence =>
    obtain ⟨e, hEntry, -, rfl⟩ := (setSequence_eq_ok_iff s s' id sequence).1 hApply
    exact h.put (h id e hEntry)
  | remove id =>
    obtain ⟨-, -, rfl⟩ := (remove_eq_ok_iff s s' id).1 hApply
    intro id' e hEntry
    rw [Table.get?_erase] at hEntry
    split at hEntry
    · cases hEntry
    · exact h id' e hEntry
  | report r => exact h.report hApply
  | removeReplica id node =>
    obtain ⟨e, hEntry, -, rfl⟩ := (removeReplica_eq_ok_iff s s' id node).1 hApply
    exact h.put (h id e hEntry)
  | evict node =>
    cases hApply
    exact h.evict node

theorem Keyed.step {s : Store} (h : s.Keyed) (op : Operation) : (s.step op).Keyed := by
  unfold Store.step
  cases hApply : s.apply op with
  | error fault => exact h
  | ok s' => exact h.apply hApply

theorem Keyed.run {s : Store} (h : s.Keyed) (operations : List Operation) :
    (s.run operations).Keyed := by
  induction operations generalizing s with
  | nil => exact h
  | cons op rest ih => exact ih (h.step op)

end Store

end ReplicaUpkeep
