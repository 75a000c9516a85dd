import ReplicaUpkeep.Proofs.Plan.Closing
import ReplicaUpkeep.Proofs.Store.Shown

/-!
# Acknowledged writes stay visible

A container is closed for good at the highest sequence of its current snapshot.  This module compares
that with the sequences that earlier reports gave.  As long as the latest report on a replica gives
both its sequence and its origin, the snapshot shows the replica at least as far as any accepted report
ever put it since its record was last dropped, so closing for good never goes behind such a report.

A latest report that lacks one of the two is the exception, and it is a deliberate one: the replica
then counts as unhealthy at sequence zero until a full report comes, whatever the record remembers.
-/

namespace ReplicaUpkeep

namespace Store

/-- While the latest report is full and not of a deletion, the snapshot shows the replica no less far
than any report of its history. -/
theorem le_sequence_of_mem_history {operations : List Operation} {id : ContainerId} {node : NodeId}
    {r last : Report} {sequence : UInt64} (hMem : r ∈ history operations id node)
    (hGiven : r.sequence = some sequence) (hLast : (history operations id node).getLast? = some last)
    (hFull : last.isMalformed = false) (hLive : last.state ≠ .deleted) :
    ∃ snapshot, (Store.empty.run operations).snapshot id = .ok snapshot ∧
      ∃ replica ∈ snapshot.replicas, sequence ≤ replica.sequence := by
  obtain ⟨latest, origin, hLatest, hOrigin⟩ := last.isMalformed_eq_false_iff.1 hFull
  obtain ⟨earlier, hEarlier⟩ := List.getLast?_eq_some_iff.1 hLast
  let replica : Replica := ⟨node, last.state, latest, some origin, last.isEmpty⟩
  have hShows : Shows node (history operations id node) replica :=
    hEarlier ▸ .full earlier last latest origin hLatest hOrigin hLive
  obtain ⟨record, hRecord⟩ := Option.isSome_iff_exists.1
    ((isSome_record?_run_iff operations id node).2 hShows.ne_nil)
  obtain ⟨snapshot, hSnapshot⟩ := exists_snapshot hRecord
  have hShown : replica ∈ snapshot.replicas :=
    (mem_snapshot_iff hSnapshot (record?_run operations id node)).2 hShows
  refine ⟨snapshot, hSnapshot, replica, hShown, ?_⟩
  -- The sequence of the last report is the last of the given ones, which bounds them all.
  have hLastGiven : ((history operations id node).filterMap Report.sequence).getLast? =
      some latest := by
    rw [hEarlier, List.filterMap_append, List.getLast?_append]
    simp only [List.filterMap_cons, hLatest, List.filterMap_nil, List.getLast?_singleton,
      Option.some_or]
  exact rel_getLast? Std.le_refl (coherent_history operations id node).sequences
    (List.mem_filterMap.2 ⟨r, hMem, hGiven⟩) hLastGiven

end Store

namespace Snapshot

variable (s : Snapshot)

theorem verdict_evaluate (lookup : NodeLookup) : (s.evaluate lookup).verdict = s.ruling :=
  rfl

theorem ruling_eq_some_iff (v : Verdict) :
    s.ruling = some v ↔ s.container.state = .quasiClosed ∧ s.verdict = v := by
  simp [ruling]

/-- A close that is final goes to a replica at the highest sequence. -/
theorem sequence_eq_of_mem_final_close (lookup : NodeLookup)
    (hState : s.container.state = .quasiClosed) (hStuck : s.verdict.stuck = false) {d : Directive}
    (h : d ∈ (s.evaluate lookup).ofKind .close) :
    ∃ replica ∈ s.replicas, d.target = some replica.node ∧ replica.sequence = s.maxSequence := by
  have hNobody : s.any .writable = false := (s.stuck_eq_false_iff_checks.1 hStuck).1
  rw [ofKind_evaluate, part, Plan.directives_closing] at h
  obtain ⟨n, hn, rfl⟩ := List.mem_map.1 h
  have hTarget : n ∈ s.verdict.finalizeTargets := by
    simpa [closeTargets, ruling, hState, blockingOpen_eq_any, hNobody, hStuck] using
      (List.mem_filter.1 hn).1
  obtain ⟨replica, hReplica, rfl⟩ := List.mem_map.1 (List.mem_filter.1 hTarget).1
  obtain ⟨hMem, -, hLatest⟩ := (s.mem_eligible replica).1 hReplica
  exact ⟨replica, hMem, rfl, (s.sequence_eq_maxSequence_iff hMem).2 hLatest⟩

end Snapshot

/-- After any run, if some report since the record was last dropped gave a replica's sequence, and the
latest report on it is full and not of a deletion, then the container has a snapshot, and no verdict on
it that is not stuck lies behind that sequence, nor does a replica that is told to close for good. -/
theorem reported_sequence_le_final (operations : List Store.Operation) (id : ContainerId)
    (node : NodeId) {r last : Report} {sequence : UInt64}
    (hMem : r ∈ Store.history operations id node) (hGiven : r.sequence = some sequence)
    (hLast : (Store.history operations id node).getLast? = some last)
    (hFull : last.isMalformed = false) (hLive : last.state ≠ .deleted) :
    ∃ s, (Store.empty.run operations).snapshot id = .ok s ∧
      ∀ (lookup : NodeLookup) (v : Verdict), (s.evaluate lookup).verdict = some v →
        v.stuck = false →
          sequence ≤ v.maxSequence ∧
            ∀ d ∈ (s.evaluate lookup).ofKind .close, ∃ replica ∈ s.replicas,
              d.target = some replica.node ∧ sequence ≤ replica.sequence := by
  obtain ⟨s, hSnapshot, shown, hShown, hLe⟩ :=
    Store.le_sequence_of_mem_history hMem hGiven hLast hFull hLive
  have hMax : sequence ≤ s.maxSequence := Std.le_trans hLe (s.sequence_le_maxSequence hShown)
  refine ⟨s, hSnapshot, fun lookup v hVerdict hStuck => ?_⟩
  rw [s.verdict_evaluate, s.ruling_eq_some_iff] at hVerdict
  obtain ⟨hState, rfl⟩ := hVerdict
  refine ⟨hMax, fun d hd => ?_⟩
  obtain ⟨replica, hReplica, hTarget, hAt⟩ :=
    s.sequence_eq_of_mem_final_close lookup hState hStuck hd
  exact ⟨replica, hReplica, hTarget, hAt ▸ hMax⟩

/-- A report at sequence nine still counts after a report that gave neither sequence nor origin, once a
full report follows that one. -/
theorem reported_sequence_le_final_of_three :
    let atNine : Report := ⟨⟨1⟩, "a", .quasiClosed, some 9, some "a", false⟩
    let silent : Report := ⟨⟨1⟩, "a", .quasiClosed, none, none, false⟩
    let again : Report := ⟨⟨1⟩, "a", .quasiClosed, some 10, some "a", true⟩
    let operations : List Store.Operation :=
      [.add ⟨⟨1⟩, .quasiClosed, 1, 0⟩, .report atNine, .report silent, .report again]
    let lookup : NodeLookup := fun _ => some ⟨.inService, .healthy, none⟩
    Store.history operations ⟨1⟩ "a" = [atNine, silent, again] ∧ again.isMalformed = false ∧
      again.state ≠ .deleted ∧
      ∃ s v, (Store.empty.run operations).snapshot ⟨1⟩ = .ok s ∧
        (s.evaluate lookup).verdict = some v ∧ v.stuck = false ∧ 9 ≤ v.maxSequence ∧
        Directive.close ⟨1⟩ "a" ∈ (s.evaluate lookup).ofKind .close ∧
        ∃ replica ∈ s.replicas, some "a" = some replica.node ∧ 9 ≤ replica.sequence := by
  intro atNine silent again operations lookup
  have hHistory : Store.history operations ⟨1⟩ "a" = [atNine, silent, again] := by decide
  have hMem : atNine ∈ Store.history operations ⟨1⟩ "a" := by simp [hHistory]
  have hLast : (Store.history operations ⟨1⟩ "a").getLast? = some again := by simp [hHistory]
  have hRead : (((Store.empty.run operations).snapshot ⟨1⟩).map fun s =>
      (s.ruling.map Verdict.stuck, (s.evaluate lookup).ofKind .close)).toOption =
        some (some false, [.close ⟨1⟩ "a"]) := by decide
  obtain ⟨s, hSnapshot, hFinal⟩ :=
    reported_sequence_le_final operations ⟨1⟩ "a" hMem rfl hLast rfl (by decide)
  simp only [hSnapshot, Except.map, Except.toOption, Option.some.injEq, Option.map_eq_some_iff,
    Prod.mk.injEq] at hRead
  obtain ⟨⟨v, hVerdict, hStuck⟩, hCloses⟩ := hRead
  have hClose : Directive.close ⟨1⟩ "a" ∈ (s.evaluate lookup).ofKind .close := by simp [hCloses]
  obtain ⟨hMax, hTargets⟩ := hFinal lookup v hVerdict hStuck
  exact ⟨hHistory, rfl, by decide, s, v, hSnapshot, hVerdict, hStuck, hMax, hClose,
    hTargets _ hClose⟩

/-- The exception is a real one.  A node whose replica was reported at sequence nine sends a report that
gives neither sequence nor origin, and the container is closed for good at sequence five, although the
replica was neither dropped nor reported as deleted. -/
theorem sequence_hidden_by_partial_report :
    ¬ ∀ (operations : List Store.Operation) (id : ContainerId) (node : NodeId) (r : Report)
        (sequence : UInt64),
      r ∈ Store.history operations id node → r.isMalformed = false → r.sequence = some sequence →
        (∀ later ∈ Store.history operations id node, later.state ≠ .deleted) →
          ∀ (s : Snapshot) (lookup : NodeLookup) (v : Verdict),
            (Store.empty.run operations).snapshot id = .ok s →
              (s.evaluate lookup).verdict = some v → v.stuck = false →
                sequence ≤ v.maxSequence := by
  intro hNever
  let container : Container := ⟨⟨1⟩, .quasiClosed, 1, 0⟩
  let atNine : Report := ⟨⟨1⟩, "a", .quasiClosed, some 9, some "a", false⟩
  let silent : Report := ⟨⟨1⟩, "a", .quasiClosed, none, none, false⟩
  let atFive : Report := ⟨⟨1⟩, "b", .quasiClosed, some 5, some "b", false⟩
  let operations : List Store.Operation :=
    [.add container, .report atNine, .report atFive, .report silent]
  have hHistory : Store.history operations ⟨1⟩ "a" = [atNine, silent] := by decide
  have hRead : (((Store.empty.run operations).snapshot ⟨1⟩).map fun s =>
      (s.ruling.map fun v => (v.stuck, v.maxSequence))).toOption = some (some (false, 5)) := by decide
  cases hSnapshot : (Store.empty.run operations).snapshot ⟨1⟩ with
  | error fault => simp [hSnapshot, Except.map, Except.toOption] at hRead
  | ok s =>
    simp only [hSnapshot, Except.map, Except.toOption, Option.some.injEq, Option.map_eq_some_iff,
      Prod.mk.injEq] at hRead
    obtain ⟨v, hVerdict, hStuck, hFive⟩ := hRead
    have hNine : 9 ≤ v.maxSequence :=
      hNever operations ⟨1⟩ "a" atNine 9 (by simp [hHistory]) rfl rfl
        (by simp [hHistory, atNine, silent]) s (fun _ => none) v hSnapshot hVerdict hStuck
    exact absurd (hFive ▸ hNine) (by decide)

end ReplicaUpkeep
