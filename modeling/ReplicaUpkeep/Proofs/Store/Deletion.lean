import ReplicaUpkeep.Proofs.Store.Shown

/-!
# After a reported deletion

A replica that its node reports as deleted leaves the snapshot of its container at once, yet its record
stays.  Only removing the replica, its node or its container drops a record; until then it guards against
the reports that follow.  What a node reports after a deletion is therefore taken in exactly as far as it
goes on from where the deleted replica was: not behind its sequence, and of its origin.  A copy of
another lineage, placed on the node afterwards, is refused and never shows.

So a deletion does not end the life of a replica for the store, although it does for the snapshot.
-/

namespace ReplicaUpkeep

namespace Store

/-- A report that is taken in joins the history of its replica. -/
theorem record?_of_report {operations : List Operation} {r : Report} {s' : Store}
    (h : (Store.empty.run operations).report r = .ok s') :
    s'.record? r.container r.node =
      Record.afterReports none (history operations r.container r.node ++ [r]) := by
  have hApply : (Store.empty.run operations).apply (.report r) = .ok s' := h
  have hOn : (Operation.report r).reportsOn r.container r.node = [r] := if_pos ⟨rfl, rfl⟩
  rw [record?_apply hApply, record?_run, hOn, Record.afterReports_append]
  rfl

end Store

/-- After any run, if the last report accepted on a replica is of its deletion, its node is not in the
snapshot of the container.  The next report on it is accepted exactly if it is coherent with all that were
accepted before, those of the deleted replica included, and then the node shows as they all say. -/
theorem report_after_deletion (operations : List Store.Operation) (id : ContainerId) (node : NodeId)
    {last : Report} (hLast : (Store.history operations id node).getLast? = some last)
    (hDeleted : last.state = .deleted) :
    (∃ snapshot, (Store.empty.run operations).snapshot id = .ok snapshot ∧
      ∀ replica ∈ snapshot.replicas, replica.node ≠ node) ∧
    ∀ r : Report, r.container = id → r.node = node →
      ((∃ s', (Store.empty.run operations).report r = .ok s') ↔
        Coherent (Store.history operations id node ++ [r])) ∧
      ∀ s', (Store.empty.run operations).report r = .ok s' →
        ∃ snapshot, s'.snapshot id = .ok snapshot ∧
          ∀ replica, replica.node = node →
            (replica ∈ snapshot.replicas ↔
              Shows node (Store.history operations id node ++ [r]) replica) := by
  obtain ⟨old, hRecord⟩ := Record.afterReports_of_getLast? hLast
  rw [← Store.record?_run] at hRecord
  refine ⟨?_, ?_⟩
  · obtain ⟨snapshot, hSnapshot⟩ := Store.exists_snapshot hRecord
    refine ⟨snapshot, hSnapshot, ?_⟩
    rintro replica hReplica rfl
    have hShows := (Store.mem_snapshot_iff hSnapshot
      (Store.record?_run operations id replica.node)).1 hReplica
    exact hShows.state_last_ne_deleted hLast hDeleted
  · rintro r rfl rfl
    obtain ⟨e, hEntry, -⟩ := Option.bind_eq_some_iff.1 hRecord
    refine ⟨?_, fun s' hReport => ?_⟩
    · rw [Store.report_accepted_iff, and_iff_right ⟨e, hEntry⟩]
    · have hNext := Store.record?_of_report hReport
      have hSome : s'.record? r.container r.node = some (.ofReport
          (Record.afterReports none (Store.history operations r.container r.node)) r) := by
        rw [hNext, Record.afterReports_append, Record.afterReports_singleton]
      obtain ⟨snapshot, hSnapshot⟩ := Store.exists_snapshot hSome
      refine ⟨snapshot, hSnapshot, ?_⟩
      rintro replica hNode
      rw [← hNode] at hNext ⊢
      exact Store.mem_snapshot_iff hSnapshot hNext

/-- A replica deleted at sequence nine: its node reports it again at sequence nine, and it shows. -/
theorem report_after_deletion_of_one :
    let atNine : Report := ⟨⟨1⟩, "b", .closed, some 9, some "b", false⟩
    let gone : Report := ⟨⟨1⟩, "b", .deleted, some 9, some "b", true⟩
    let operations : List Store.Operation :=
      [.add ⟨⟨1⟩, .closed, 2, 9⟩, .report atNine, .report gone]
    (Store.history operations ⟨1⟩ "b").getLast? = some gone ∧ gone.state = .deleted ∧
      ∃ s' snapshot, (Store.empty.run operations).report atNine = .ok s' ∧
        s'.snapshot ⟨1⟩ = .ok snapshot ∧ ⟨"b", .closed, 9, some "b", false⟩ ∈ snapshot.replicas := by
  intro atNine gone operations
  have hHistory : Store.history operations ⟨1⟩ "b" = [atNine, gone] := by decide
  have hLast : (Store.history operations ⟨1⟩ "b").getLast? = some gone := by rw [hHistory]; rfl
  obtain ⟨hAccepted, hShown⟩ :=
    (report_after_deletion operations ⟨1⟩ "b" hLast rfl).2 atNine rfl rfl
  rw [hHistory] at hAccepted hShown
  obtain ⟨s', hReport⟩ := hAccepted.2 ⟨by decide, by decide⟩
  obtain ⟨snapshot, hSnapshot, hReplicas⟩ := hShown s' hReport
  refine ⟨hLast, rfl, s', snapshot, hReport, hSnapshot, ?_⟩
  exact (hReplicas _ rfl).2 (.full [atNine, gone] atNine 9 "b" rfl rfl (by decide))

/-- The guard outlives the replica.  A node reports its replica as deleted and is then given a copy from
another node, which descends from that node's data; the report on the copy is refused. -/
theorem copy_refused_after_deletion :
    ¬ ∀ (operations : List Store.Operation) (r last : Report),
      (Store.history operations r.container r.node).getLast? = some last →
        last.state = .deleted → ∃ s', (Store.empty.run operations).report r = .ok s' := by
  intro hAccepted
  let original : Report := ⟨⟨1⟩, "b", .closed, some 9, some "b", false⟩
  let gone : Report := ⟨⟨1⟩, "b", .deleted, some 9, some "b", true⟩
  let copied : Report := ⟨⟨1⟩, "b", .closed, some 9, some "a", false⟩
  let operations : List Store.Operation := [.add ⟨⟨1⟩, .closed, 2, 9⟩,
    .report ⟨⟨1⟩, "a", .closed, some 9, some "a", false⟩, .report original, .report gone]
  have hHistory : Store.history operations ⟨1⟩ "b" = [original, gone] := by decide
  have hRefused : ((Store.empty.run operations).report copied).isOk = false := by decide
  obtain ⟨s', hReport⟩ := hAccepted operations copied gone (by rw [hHistory]; rfl) rfl
  rw [hReport] at hRefused
  cases hRefused

end ReplicaUpkeep
