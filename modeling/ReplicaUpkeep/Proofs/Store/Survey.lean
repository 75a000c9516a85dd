import ReplicaUpkeep.Audit
import ReplicaUpkeep.Proofs.Store.Keyed
import ReplicaUpkeep.Proofs.Store.Shown

/-!
# All snapshots of a store

A look at a whole store visits every container, in ascending order, and evaluates its snapshot.  Nothing
can go wrong on the way: what is found is one evaluation for each snapshot, and no error.  Where containers
are stored under their own numbers, the numbers that the snapshots give are those that were visited.
-/

namespace ReplicaUpkeep

namespace Store

/-- The snapshots of all containers, in the order of their numbers. -/
def snapshots (s : Store) : List Snapshot :=
  s.entries.values.map snapshotOf

theorem mem_snapshots_iff (s : Store) (snapshot : Snapshot) :
    snapshot ∈ s.snapshots ↔ ∃ id, s.snapshot id = .ok snapshot := by
  simp only [snapshots, List.mem_map, Table.mem_values_iff, snapshot_eq_ok_iff]
  constructor
  · rintro ⟨e, ⟨id, hEntry⟩, hSnapshot⟩
    exact ⟨id, e, hEntry, hSnapshot⟩
  · rintro ⟨id, e, hEntry, hSnapshot⟩
    exact ⟨e, ⟨id, hEntry⟩, hSnapshot⟩

theorem evaluate_eq_ok_iff (s : Store) (lookup : NodeLookup) (id : ContainerId) (e : Evaluation) :
    s.evaluate lookup id = .ok e ↔
      ∃ snapshot, s.snapshot id = .ok snapshot ∧ snapshot.evaluate lookup = e := by
  rw [evaluate]
  cases s.snapshot id <;> simp [Except.map]

/-- A container without a snapshot is not known. -/
theorem eq_containerNotFound_of_snapshot {s : Store} {id : ContainerId} {fault : Error}
    (h : s.snapshot id = .error fault) : fault = .containerNotFound id := by
  revert h
  unfold snapshot entry
  cases s.entries.get? id <;> simp [Except.map, eq_comm]

theorem exists_snapshot_iff (s : Store) (id : ContainerId) :
    (∃ snapshot, s.snapshot id = .ok snapshot) ↔ id ∈ s.ids := by
  simp only [snapshot_eq_ok_iff, ids, Table.mem_keys_iff]
  constructor
  · rintro ⟨_, e, hEntry, -⟩
    exact ⟨e, hEntry⟩
  · rintro ⟨e, hEntry⟩
    exact ⟨snapshotOf e, e, hEntry, rfl⟩

/-! ## What a visit of all containers finds -/

section Findings

variable (s : Store) (lookup : NodeLookup)

/-- Every visit of a container finds the evaluation of its snapshot. -/
theorem findings_eq :
    s.findings lookup =
      s.entries.entries.map (fun e => (e.1, .ok ((snapshotOf e.2).evaluate lookup))) := by
  rw [findings, ids, Table.keys, List.map_map]
  refine List.map_congr_left fun e he => ?_
  have hSnapshot := (s.snapshot_eq_ok_iff e.1 _).2 ⟨e.2, (Table.mem_entries_iff _ _ _).1 he, rfl⟩
  rw [Function.comp_apply, (s.evaluate_eq_ok_iff lookup e.1 _).2 ⟨_, hSnapshot, rfl⟩]

theorem evaluations_findings_eq :
    (s.findings lookup).evaluations = s.snapshots.map (fun snapshot => snapshot.evaluate lookup) := by
  rw [findings_eq, Findings.evaluations, List.filterMap_map, snapshots, Table.values, List.map_map,
    List.map_map]
  exact congrFun List.filterMap_eq_map _

theorem errors_findings : (s.findings lookup).errors = [] := by
  rw [findings_eq, Findings.errors, List.filterMap_map, List.filterMap_eq_nil_iff]
  intro e _
  rfl

theorem length_findings : (s.findings lookup).length = s.snapshots.length := by
  simp [findings_eq, snapshots, Table.values]

end Findings

/-! ## Containers under their own numbers -/

section Keyed

variable {s : Store} (h : s.Keyed)
include h

theorem id_of_snapshot {id : ContainerId} {snapshot : Snapshot}
    (hSnapshot : s.snapshot id = .ok snapshot) : snapshot.id = id := by
  obtain ⟨e, hEntry, rfl⟩ := (s.snapshot_eq_ok_iff id snapshot).1 hSnapshot
  exact h id e hEntry

theorem snapshot_of_mem_snapshots {snapshot : Snapshot} (hMem : snapshot ∈ s.snapshots) :
    s.snapshot snapshot.id = .ok snapshot := by
  obtain ⟨id, hSnapshot⟩ := (s.mem_snapshots_iff snapshot).1 hMem
  rw [id_of_snapshot h hSnapshot, hSnapshot]

theorem snapshots_ascending : s.snapshots.Pairwise (fun a b => a.id < b.id) := by
  have hIds : s.snapshots.map Snapshot.id = s.ids := by
    rw [snapshots, Table.values, List.map_map, List.map_map, ids, Table.keys]
    refine List.map_congr_left fun e he => ?_
    exact h e.1 e.2 ((Table.mem_entries_iff _ _ _).1 he)
  rw [← List.pairwise_map, hIds]
  exact s.entries.keys_ascending

end Keyed

end Store

end ReplicaUpkeep
