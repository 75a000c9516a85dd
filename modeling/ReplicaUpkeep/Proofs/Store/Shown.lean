import ReplicaUpkeep.Proofs.Plan.Usability
import ReplicaUpkeep.Proofs.Store.History

/-!
# What a snapshot shows of its reports

A snapshot is taken from records, and a record keeps more than its last report: the sequence and the
origin that earlier reports gave, and a mark for a last report that lacked one of them.  Here the
snapshot is compared with the reports themselves.  A node shows as its last accepted report says, if
that report is full; after a report that lacks its sequence or its origin it shows as unhealthy at
sequence zero, and all that earlier reports still contribute is the origin; after a report of a deletion
it does not show at all.  So whatever is not unhealthy has an origin, and a report that lacks one of the
two supports no decision.

Only the reports since the record was last dropped count, which is what a history holds.
-/

namespace ReplicaUpkeep

/-! ## The replica that reports show -/

/-- What a node shows after reports on one container, of which the last is not of a deletion.  After a
last report of a deletion, or without any report, it shows nothing. -/
inductive Shows (node : NodeId) : List Report → Replica → Prop
  | full (earlier : List Report) (last : Report) (sequence : UInt64) (origin : NodeId)
    (hSequence : last.sequence = some sequence) (hOrigin : last.origin = some origin)
    (hLive : last.state ≠ .deleted) :
    Shows node (earlier ++ [last]) ⟨node, last.state, sequence, some origin, last.isEmpty⟩
  | lacking (earlier : List Report) (last : Report)
    (hLacking : last.sequence = none ∨ last.origin = none) (hLive : last.state ≠ .deleted) :
    Shows node (earlier ++ [last])
      ⟨node, .unhealthy, 0, last.origin <|> (earlier.filterMap Report.origin).getLast?, last.isEmpty⟩

theorem Report.isMalformed_iff (r : Report) :
    r.isMalformed = true ↔ r.sequence = none ∨ r.origin = none := by
  simp [isMalformed]

theorem Report.isMalformed_eq_false_iff (r : Report) :
    r.isMalformed = false ↔
      ∃ sequence origin, r.sequence = some sequence ∧ r.origin = some origin := by
  simp [isMalformed, Option.isSome_iff_exists]

namespace Shows

variable {node : NodeId} {reports : List Report} {replica : Replica}

theorem ne_nil (h : Shows node reports replica) : reports ≠ [] := by
  cases h <;> simp

/-- Whatever is not unhealthy has an origin. -/
theorem exists_origin (h : Shows node reports replica) (hState : replica.state ≠ .unhealthy) :
    ∃ origin, replica.origin = some origin := by
  cases h with
  | full earlier last sequence origin => exact ⟨origin, rfl⟩
  | lacking => exact absurd rfl hState

/-- A last report that lacks its sequence or its origin leaves an unhealthy replica. -/
theorem state_eq_unhealthy (h : Shows node reports replica) {last : Report}
    (hLast : reports.getLast? = some last) (hLacking : last.isMalformed = true) :
    replica.state = .unhealthy := by
  cases h with
  | full earlier r sequence origin hSequence hOrigin =>
    rw [List.getLast?_concat, Option.some.injEq] at hLast
    rw [← hLast, Report.isMalformed_iff, hSequence, hOrigin] at hLacking
    simp at hLacking
  | lacking => rfl

/-- Nothing shows after a report of a deletion. -/
theorem state_last_ne_deleted (h : Shows node reports replica) {last : Report}
    (hLast : reports.getLast? = some last) : last.state ≠ .deleted := by
  cases h with
  | full earlier r sequence origin hSequence hOrigin hLive =>
    rw [List.getLast?_concat, Option.some.injEq] at hLast
    exact hLast ▸ hLive
  | lacking earlier r hLacking hLive =>
    rw [List.getLast?_concat, Option.some.injEq] at hLast
    exact hLast ▸ hLive

end Shows

namespace Record

theorem toReplica_ofReport_of_full {r : Report} {sequence : UInt64} {origin : NodeId}
    (hSequence : r.sequence = some sequence) (hOrigin : r.origin = some origin)
    (old : Option Record) (node : NodeId) :
    (ofReport old r).toReplica node = ⟨node, r.state, sequence, some origin, r.isEmpty⟩ := by
  simp [toReplica, ofReport, Report.isMalformed, hSequence, hOrigin]

theorem toReplica_ofReport_of_lacking {r : Report}
    (hLacking : r.sequence = none ∨ r.origin = none) (hLive : r.state ≠ .deleted)
    (old : Option Record) (node : NodeId) :
    (ofReport old r).toReplica node =
      ⟨node, .unhealthy, 0, r.origin <|> old.bind Record.origin, r.isEmpty⟩ := by
  simp [toReplica, ofReport, (r.isMalformed_iff).2 hLacking, hLive]

theorem state_toReplica_of_deleted {record : Record} (h : record.state = .deleted) (node : NodeId) :
    (record.toReplica node).state = .deleted := by
  simp [toReplica, h]

/-- The record of some reports reads as what they show. -/
theorem shows_iff (node : NodeId) (reports : List Report) (replica : Replica) :
    Shows node reports replica ↔
      ∃ record, afterReports none reports = some record ∧ record.toReplica node = replica ∧
        replica.state ≠ .deleted := by
  constructor
  · intro h
    cases h with
    | full earlier last sequence origin hSequence hOrigin hLive =>
      refine ⟨ofReport (afterReports none earlier) last, ?_, ?_, hLive⟩
      · rw [afterReports_append, afterReports_singleton]
      · rw [toReplica_ofReport_of_full hSequence hOrigin]
    | lacking earlier last hLacking hLive =>
      refine ⟨ofReport (afterReports none earlier) last, ?_, ?_, by simp⟩
      · rw [afterReports_append, afterReports_singleton]
      · rw [toReplica_ofReport_of_lacking hLacking hLive, origin_afterReports]
  · rintro ⟨record, hRecord, rfl, hLive⟩
    rcases List.eq_nil_or_concat' reports with rfl | ⟨earlier, last, rfl⟩
    · cases hRecord
    rw [afterReports_append, afterReports_singleton, Option.some.injEq] at hRecord
    subst hRecord
    have hState : last.state ≠ .deleted := fun hDeleted =>
      hLive (state_toReplica_of_deleted hDeleted node)
    cases hMalformed : last.isMalformed with
    | true =>
      have hLacking := last.isMalformed_iff.1 hMalformed
      rw [toReplica_ofReport_of_lacking hLacking hState, origin_afterReports]
      exact .lacking earlier last hLacking hState
    | false =>
      obtain ⟨sequence, origin, hSequence, hOrigin⟩ := last.isMalformed_eq_false_iff.1 hMalformed
      rw [toReplica_ofReport_of_full hSequence hOrigin]
      exact .full earlier last sequence origin hSequence hOrigin hState

end Record

/-! ## The snapshot of an entry -/

namespace Store

theorem nodup_node_snapshotOf (e : StoreEntry) :
    ((snapshotOf e).replicas.map Replica.node).Nodup := by
  have hNodes : (e.replicas.entries.map fun r => r.2.toReplica r.1).map Replica.node =
      e.replicas.keys := by
    rw [List.map_map]
    rfl
  rw [snapshotOf, ((Snapshot.perm_of _ _).map Replica.node).nodup_iff]
  exact (hNodes ▸ e.replicas.keys_nodup).sublist (List.filter_sublist.map _)

/-- A snapshot holds what the records of its nodes read as. -/
theorem mem_snapshotOf_iff (e : StoreEntry) (replica : Replica) :
    replica ∈ (snapshotOf e).replicas ↔
      ∃ record, e.replicas.get? replica.node = some record ∧
        record.toReplica replica.node = replica ∧ replica.state ≠ .deleted := by
  rw [snapshotOf, (Snapshot.perm_of _ _).mem_iff, List.mem_filter, decide_eq_true_eq, List.mem_map]
  constructor
  · rintro ⟨⟨⟨node, record⟩, hEntry, rfl⟩, hLive⟩
    exact ⟨record, (Table.mem_entries_iff _ _ _).1 hEntry, rfl, hLive⟩
  · rintro ⟨record, hRecord, hReads, hLive⟩
    exact ⟨⟨(replica.node, record), (Table.mem_entries_iff _ _ _).2 hRecord, hReads⟩, hLive⟩

theorem snapshot_eq_ok_iff (s : Store) (id : ContainerId) (snapshot : Snapshot) :
    s.snapshot id = .ok snapshot ↔ ∃ e, s.entries.get? id = some e ∧ snapshotOf e = snapshot :=
  entry_map_eq_ok_iff s id snapshotOf snapshot

/-- Where the records of a container stand for lists of reports, its snapshot shows these. -/
theorem mem_snapshot_iff {s : Store} {id : ContainerId} {snapshot : Snapshot}
    (hSnapshot : s.snapshot id = .ok snapshot) {replica : Replica} {reports : List Report}
    (hRecord : s.record? id replica.node = Record.afterReports none reports) :
    replica ∈ snapshot.replicas ↔ Shows replica.node reports replica := by
  obtain ⟨e, hEntry, rfl⟩ := (s.snapshot_eq_ok_iff id snapshot).1 hSnapshot
  rw [record?_of_get? hEntry] at hRecord
  rw [mem_snapshotOf_iff, hRecord, Record.shows_iff]

/-- A snapshot of a store lists its nodes in strictly ascending order. -/
theorem node_lt_of_snapshot {s : Store} {id : ContainerId} {snapshot : Snapshot}
    (hSnapshot : s.snapshot id = .ok snapshot) :
    snapshot.replicas.Pairwise (fun a b => a.node < b.node) := by
  obtain ⟨e, -, rfl⟩ := (s.snapshot_eq_ok_iff id snapshot).1 hSnapshot
  exact (snapshotOf e).node_lt_of_nodup (nodup_node_snapshotOf e)

/-- A container with a record has a snapshot. -/
theorem exists_snapshot {s : Store} {id : ContainerId} {node : NodeId} {record : Record}
    (hRecord : s.record? id node = some record) : ∃ snapshot, s.snapshot id = .ok snapshot := by
  obtain ⟨e, hEntry, -⟩ := Option.bind_eq_some_iff.1 hRecord
  exact ⟨snapshotOf e, (s.snapshot_eq_ok_iff id _).2 ⟨e, hEntry, rfl⟩⟩

/-- A replica has a record as long as its history is not empty. -/
theorem isSome_record?_run_iff (operations : List Operation) (id : ContainerId) (node : NodeId) :
    ((Store.empty.run operations).record? id node).isSome = true ↔
      history operations id node ≠ [] := by
  rw [record?_run]
  rcases List.eq_nil_or_concat' (history operations id node) with hNone | ⟨earlier, last, hSome⟩
  · simp [hNone]
  · simp [hSome, Record.afterReports_append]

end Store

/-- After any run, every container with a reported replica has a snapshot, and the snapshot of a known
container shows each node as the history of its reports says and in no other way, the nodes in strictly
ascending order, none without a record.  So a replica that is not unhealthy has an origin, and a node
whose last report lacks its sequence or its origin is neither good nor eligible, is not among those to be
closed for good, and is not told to close at all. -/
theorem snapshot_shows_last_reports (operations : List Store.Operation) (id : ContainerId) :
    let s := Store.empty.run operations
    (∀ node, (s.record? id node).isSome = true ↔ Store.history operations id node ≠ []) ∧
    (∀ node, (s.record? id node).isSome = true → ∃ snapshot, s.snapshot id = .ok snapshot) ∧
    ∀ snapshot, s.snapshot id = .ok snapshot →
      (∀ replica, replica ∈ snapshot.replicas ↔
        Shows replica.node (Store.history operations id replica.node) replica) ∧
      (∀ replica ∈ snapshot.replicas, (s.record? id replica.node).isSome = true) ∧
      snapshot.replicas.Pairwise (fun a b => a.node < b.node) ∧
      (∀ replica ∈ snapshot.replicas, replica.state ≠ .unhealthy →
        ∃ origin, replica.origin = some origin) ∧
      ∀ (node : NodeId) (last : Report),
        (Store.history operations id node).getLast? = some last → last.isMalformed = true →
          node ∉ snapshot.nodesOf .good ∧ node ∉ snapshot.verdict.eligible ∧
            node ∉ snapshot.verdict.finalizeTargets ∧
            ∀ lookup : NodeLookup, Directive.close id node ∉ (snapshot.evaluate lookup).directives := by
  intro s
  refine ⟨Store.isSome_record?_run_iff operations id, fun node hRecord => ?_, fun snapshot hSnapshot => ?_⟩
  · obtain ⟨record, hRecord⟩ := Option.isSome_iff_exists.1 hRecord
    exact Store.exists_snapshot hRecord
  have hShows : ∀ replica, replica ∈ snapshot.replicas ↔
      Shows replica.node (Store.history operations id replica.node) replica := fun replica =>
    Store.mem_snapshot_iff hSnapshot (Store.record?_run operations id replica.node)
  refine ⟨hShows, fun replica hReplica => ?_, Store.node_lt_of_snapshot hSnapshot,
    fun replica hReplica => ((hShows replica).1 hReplica).exists_origin,
    fun node last hLast hLacking => ?_⟩
  · exact (Store.isSome_record?_run_iff operations id replica.node).2 ((hShows replica).1 hReplica).ne_nil
  -- The node shows as unhealthy if at all, and nothing below takes in an unhealthy replica.
  have hUnhealthy : ∀ replica ∈ snapshot.replicas, replica.node = node →
      replica.state = .unhealthy := by
    rintro replica hReplica rfl
    exact ((hShows replica).1 hReplica).state_eq_unhealthy hLast hLacking
  have hEligible : node ∉ snapshot.verdict.eligible := by
    intro hNode
    obtain ⟨replica, hReplica, hNode⟩ := List.mem_map.1 hNode
    obtain ⟨hMem, hSealed, -⟩ := (snapshot.mem_eligible replica).1 hReplica
    rw [hUnhealthy replica hMem hNode] at hSealed
    exact absurd hSealed (by decide)
  refine ⟨fun hNode => ?_, hEligible, fun hNode => hEligible (List.mem_filter.1 hNode).1,
    fun lookup hClose => ?_⟩
  · obtain ⟨replica, hReplica, hNode⟩ := (snapshot.mem_nodesOf _ node).1 hNode
    obtain ⟨hMem, hGood⟩ := (snapshot.mem_select_inStates _ replica).1 hReplica
    rw [hUnhealthy replica hMem hNode] at hGood
    exact absurd hGood (by decide)
  · rw [Snapshot.mem_directives_evaluate] at hClose
    obtain ⟨replica, hMem, hNode, hGood⟩ := snapshot.exists_good_of_mem_close lookup hClose rfl
    rw [hUnhealthy replica hMem hNode] at hGood
    exact absurd hGood (by decide)

/-- A node that was last reported without sequence and origin, one with a full report, and one whose
replica was reported as deleted. -/
theorem snapshot_shows_last_reports_of_three :
    let atNine : Report := ⟨⟨1⟩, "a", .quasiClosed, some 9, some "a", false⟩
    let silent : Report := ⟨⟨1⟩, "a", .quasiClosed, none, none, true⟩
    let atSeven : Report := ⟨⟨1⟩, "b", .closed, some 7, some "b", false⟩
    let gone : Report := ⟨⟨1⟩, "c", .deleted, some 9, some "c", false⟩
    let operations : List Store.Operation := [.add ⟨⟨1⟩, .quasiClosed, 2, 0⟩, .report atNine,
      .report atSeven, .report gone, .report silent]
    ∃ snapshot, (Store.empty.run operations).snapshot ⟨1⟩ = .ok snapshot ∧
      ⟨"a", .unhealthy, 0, some "a", true⟩ ∈ snapshot.replicas ∧
      ⟨"b", .closed, 7, some "b", false⟩ ∈ snapshot.replicas ∧
      (∀ replica ∈ snapshot.replicas, replica.node ≠ "c") ∧
      "a" ∉ snapshot.nodesOf .good ∧ "a" ∉ snapshot.verdict.eligible ∧
      ∀ lookup : NodeLookup, Directive.close ⟨1⟩ "a" ∉ (snapshot.evaluate lookup).directives := by
  intro atNine silent atSeven gone operations
  have hHistoryA : Store.history operations ⟨1⟩ "a" = [atNine, silent] := by decide
  have hHistoryB : Store.history operations ⟨1⟩ "b" = [atSeven] := by decide
  have hHistoryC : Store.history operations ⟨1⟩ "c" = [gone] := by decide
  obtain ⟨-, hKnown, hTaken⟩ := snapshot_shows_last_reports operations ⟨1⟩
  obtain ⟨snapshot, hSnapshot⟩ := hKnown "a" (by decide)
  obtain ⟨hShows, -, -, -, hLacking⟩ := hTaken snapshot hSnapshot
  refine ⟨snapshot, hSnapshot, (hShows _).2 ?_, (hShows _).2 ?_, ?_, ?_⟩
  · rw [hHistoryA]
    exact .lacking [atNine] silent (.inl rfl) (by decide)
  · rw [hHistoryB]
    exact .full [] atSeven 7 "b" rfl rfl (by decide)
  · rintro replica hReplica hNode
    have hShown := (hShows replica).1 hReplica
    rw [hNode, hHistoryC] at hShown
    exact absurd rfl (hShown.state_last_ne_deleted rfl)
  · obtain ⟨hGood, hEligible, -, hNoClose⟩ :=
      hLacking "a" silent (by rw [hHistoryA]; rfl) rfl
    exact ⟨hGood, hEligible, hNoClose⟩

end ReplicaUpkeep
