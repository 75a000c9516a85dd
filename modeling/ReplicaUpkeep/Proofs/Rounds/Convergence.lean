import ReplicaUpkeep.Proofs.Plan.Closing
import ReplicaUpkeep.Proofs.Rounds.Acknowledgement

/-!
# Rounds of acknowledged closes

A quasi-closed container is evaluated round after round, and every close that goes out is carried out
before the next round.  Three things can follow each other.  Replicas that still take writes are asked
first, all of them at once.  Then, if the verdict allows it, the eligible ones on hosts that stay are
closed for good, and after them those on hosts that leave.  Nothing is behind that, so three rounds are
enough, and a round without a close changes nothing any more.

The registry does not change over the rounds, and every node answers and lives.  Copies and deletes are
not carried out here, and the container stays quasi-closed: taking it to the next stage is not the
business of an evaluation.
-/

namespace ReplicaUpkeep

namespace Snapshot

/-- One round: the snapshot is evaluated, and every close that goes out is carried out. -/
def round (s : Snapshot) (lookup : NodeLookup) : Snapshot :=
  s.acknowledge ((s.evaluate lookup).targetsOf .close)

/-- The snapshot after a number of rounds. -/
def afterRounds (s : Snapshot) (lookup : NodeLookup) : Nat → Snapshot
  | 0 => s
  | k + 1 => (s.afterRounds lookup k).round lookup

theorem round_eq_self {s : Snapshot} {lookup : NodeLookup}
    (hNobody : (s.evaluate lookup).targetsOf .close = []) : s.round lookup = s := by
  rw [round, hNobody, acknowledge_nil]

theorem container_afterRounds (s : Snapshot) (lookup : NodeLookup) (k : Nat) :
    (s.afterRounds lookup k).container = s.container := by
  induction k with
  | zero => rfl
  | succ k ih => exact ih

/-- A quasi-closed container on distinct nodes that all answer and live. -/
structure Attended (s : Snapshot) (lookup : NodeLookup) : Prop where
  stage : s.container.state = .quasiClosed
  distinct : (s.replicas.map Replica.node).Nodup
  reached : ∀ r ∈ s.replicas, lookup.Reaches r.node

/-- Nobody writes any more, and if the container may be closed for good, then what is eligible is
closed. -/
def AtRest (s : Snapshot) : Prop :=
  (s.verdict.stuck = true ∧ ∀ r ∈ s.replicas, r.state ∉ ReplicaState.writable) ∨
    (s.verdict.stuck = false ∧
      ∀ r ∈ s.replicas, r.state ∈ ReplicaState.sealed → r.sequence = s.maxSequence →
        r.state = .closed)

/-- Every replica that is due lies on a host that leaves. -/
def OnlyLeavingDue (s : Snapshot) (lookup : NodeLookup) : Prop :=
  ∀ r ∈ s.dueToClose, ∃ status, lookup r.node = some status ∧
    status.operational.isDecommission = true

section Due

variable {s : Snapshot} (hStage : s.container.state = .quasiClosed)
include hStage

theorem dueToClose_of_writable (hWritable : s.any .writable = true) :
    s.dueToClose = s.select .writable := by
  simp [dueToClose, hStage, hWritable]

theorem dueToClose_of_quiet (hQuiet : s.any .writable = false) :
    s.dueToClose =
      if s.verdict.stuck then [] else s.eligible.filter (fun r => r.state ≠ .closed) := by
  simp [dueToClose, hStage, hQuiet]

/-- Who is due still takes writes, or is quasi-closed at the highest sequence. -/
theorem state_of_mem_dueToClose {r : Replica} (h : r ∈ s.dueToClose) :
    r.state ∈ ReplicaState.writable ∨ (r.state = .quasiClosed ∧ r.sequence = s.maxSequence) := by
  by_cases hWritable : s.any .writable = true
  · rw [dueToClose_of_writable hStage hWritable, Selector.writable, mem_select_inStates] at h
    exact Or.inl h.2
  · rw [dueToClose_of_quiet hStage (by simpa using hWritable)] at h
    split at h
    · cases h
    · obtain ⟨hEligible, hOpen⟩ := List.mem_filter.1 h
      rw [eligible, Selector.sealed, mem_select_both_atSequence] at hEligible
      obtain ⟨-, hSealed, hMax⟩ := hEligible
      have hState : r.state = .quasiClosed := by
        have hNotClosed : r.state ≠ .closed := by simpa using hOpen
        simpa [ReplicaState.sealed, hNotClosed] using hSealed
      exact Or.inr ⟨hState, hMax⟩

theorem atRest_of_dueToClose_eq_nil (h : s.dueToClose = []) : s.AtRest := by
  have hQuiet : s.any .writable = false := by
    cases hWritable : s.any .writable with
    | false => rfl
    | true =>
      rw [dueToClose_of_writable hStage hWritable, select, List.filter_eq_nil_iff] at h
      obtain ⟨r, hr, hSelects⟩ := List.any_eq_true.1 hWritable
      exact absurd hSelects (h r hr)
  rw [dueToClose_of_quiet hStage hQuiet] at h
  cases hStuck : s.verdict.stuck with
  | true => exact Or.inl ⟨hStuck, s.any_writable_eq_false_iff.1 hQuiet⟩
  | false =>
    refine Or.inr ⟨hStuck, fun r hr hSealed hMax => ?_⟩
    rw [hStuck, if_neg Bool.false_ne_true, List.filter_eq_nil_iff] at h
    have hEligible : r ∈ s.eligible := by
      rw [eligible, Selector.sealed, mem_select_both_atSequence]
      exact ⟨hr, hSealed, hMax⟩
    simpa using h r hEligible

end Due

section Asked

variable {s : Snapshot} {lookup : NodeLookup} (h : s.Attended lookup)
include h

theorem targetsOf_close :
    (s.evaluate lookup).targetsOf .close =
      (s.dueToClose.map Replica.node).filter (fun n =>
        Plan.closeFate lookup
          (Plan.waitsForOther lookup (s.dueToClose.map Replica.node) s.isFinal) n = none) := by
  rw [Evaluation.targetsOf, ofKind_evaluate, s.part_close lookup h.distinct,
    Plan.directives_closing, List.filterMap_map]
  exact (congrFun List.filterMap_eq_map _).trans (List.map_id _)

/-- A due replica that is not asked lies on a host that leaves, and another due one on a host that
stays. -/
theorem waits_of_notMem_targetsOf {r : Replica} (hr : r ∈ s.dueToClose)
    (hNot : r.node ∉ (s.evaluate lookup).targetsOf .close) :
    s.verdict.stuck = false ∧
      (∃ status, lookup r.node = some status ∧ status.operational.isDecommission = true) ∧
        ∃ q ∈ s.dueToClose, ∃ status, lookup q.node = some status ∧
          status.operational.isDecommission = false := by
  rw [targetsOf_close h, List.mem_filter] at hNot
  have hRefused := fun hAsked => hNot ⟨List.mem_map_of_mem hr, decide_eq_true hAsked⟩
  obtain ⟨status, hStatus, hLives⟩ := h.reached r (s.dueToClose_sublist.subset hr)
  have hWaits : Plan.closeFate lookup
      (Plan.waitsForOther lookup (s.dueToClose.map Replica.node) s.isFinal) r.node =
        some .decommissioningHost := by
    rw [Plan.closeFate_eq_decommissioningHost_iff]
    refine ⟨status, hStatus, hLives, ?_⟩
    by_contra hGoes
    refine hRefused ((Plan.closeFate_eq_none_iff _ _ _).2 ⟨status, hStatus, hLives, ?_⟩)
    simpa using hGoes
  obtain ⟨⟨-, hStuck⟩, ⟨own, hOwn, -, hLeaves⟩, q, hq, -, other, hOther, -, hStays⟩ :=
    (s.closeFate_due_eq_decommissioningHost_iff lookup r).1 hWaits
  exact ⟨hStuck, ⟨own, hOwn, hLeaves⟩, q, hq, other, hOther, hStays⟩

/-- Nobody waits where all that are due lie on hosts that leave. -/
theorem mem_targetsOf_of_onlyLeavingDue (hLeaving : s.OnlyLeavingDue lookup) {r : Replica}
    (hr : r ∈ s.dueToClose) : r.node ∈ (s.evaluate lookup).targetsOf .close := by
  by_contra hNot
  obtain ⟨-, -, q, hq, status, hStatus, hStays⟩ := waits_of_notMem_targetsOf h hr hNot
  obtain ⟨own, hOwn, hLeaves⟩ := hLeaving q hq
  rw [hStatus, Option.some.injEq] at hOwn
  rw [← hOwn, hStays] at hLeaves
  cases hLeaves

/-- Somebody is asked as long as anybody is due. -/
theorem dueToClose_eq_nil_of_targetsOf_eq_nil
    (hNobody : (s.evaluate lookup).targetsOf .close = []) : s.dueToClose = [] := by
  have hNot : ∀ r : Replica, r.node ∉ (s.evaluate lookup).targetsOf .close := by
    simp [hNobody]
  -- If nobody is asked, then all that are due wait, so they lie on hosts that leave.
  have hLeaving : s.OnlyLeavingDue lookup := fun q hq =>
    (waits_of_notMem_targetsOf h hq (hNot q)).2.1
  exact List.eq_nil_iff_forall_not_mem.2 fun r hr =>
    hNot r (mem_targetsOf_of_onlyLeavingDue h hLeaving hr)

end Asked

section Round

variable {s : Snapshot} {lookup : NodeLookup} (h : s.Attended lookup)
include h

theorem attended_round : (s.round lookup).Attended lookup where
  stage := h.stage
  distinct := by
    rw [round, map_node_acknowledge]
    exact h.distinct
  reached := by
    intro r hr
    obtain ⟨q, hq, rfl⟩ := (s.mem_acknowledge _ r).1 hr
    rw [Replica.node_acknowledged]
    exact h.reached q hq

/-- After one round nobody takes writes any more. -/
theorem any_writable_round : (s.round lookup).any .writable = false := by
  rw [any_writable_eq_false_iff]
  intro r hr hWritable
  obtain ⟨hMem, hNot⟩ := s.mem_writable_acknowledge _ hr hWritable
  have hAny : s.any .writable = true := (s.any_inStates_iff _).2 ⟨r, hMem, hWritable⟩
  have hDue : r ∈ s.dueToClose := by
    rw [dueToClose_of_writable h.stage hAny, Selector.writable, mem_select_inStates]
    exact ⟨hMem, hWritable⟩
  -- A container that is written to is stuck, and only a final close lets a host wait.
  obtain ⟨hStuck, -⟩ := waits_of_notMem_targetsOf h hDue hNot
  rw [s.stuck_of_any_writable hAny] at hStuck
  cases hStuck

/-- Where nobody writes, the replicas that are due after a round are those that had to wait. -/
theorem mem_dueToClose_round (hQuiet : s.any .writable = false) {r : Replica}
    (hr : r ∈ (s.round lookup).dueToClose) :
    r ∈ s.dueToClose ∧ r.node ∉ (s.evaluate lookup).targetsOf .close := by
  have hQuietAfter := s.any_writable_acknowledge ((s.evaluate lookup).targetsOf .close) hQuiet
  rw [dueToClose_of_quiet (attended_round h).stage hQuietAfter, round,
    s.stuck_acknowledge _ hQuiet, s.eligible_acknowledge _ hQuiet] at hr
  rw [dueToClose_of_quiet h.stage hQuiet]
  split at hr
  · cases hr
  · rename_i hStuck
    rw [if_neg hStuck]
    obtain ⟨hMem, hOpen⟩ := List.mem_filter.1 hr
    obtain ⟨q, hq, rfl⟩ := List.mem_map.1 hMem
    have hSealed := ((s.mem_eligible q).1 hq).2.1
    -- It is not closed yet, so it was not asked.
    have hNot : q.node ∉ (s.evaluate lookup).targetsOf .close := by
      intro hAsked
      rw [Replica.state_acknowledged_of_mem hAsked, ReplicaState.afterClose_eq_closed hSealed] at hOpen
      simp at hOpen
    rw [Replica.acknowledged_of_notMem hNot] at hOpen ⊢
    exact ⟨List.mem_filter.2 ⟨hq, hOpen⟩, hNot⟩

/-- The hosts that stay are served in the first round in which nobody writes. -/
theorem onlyLeavingDue_round (hQuiet : s.any .writable = false) :
    (s.round lookup).OnlyLeavingDue lookup := by
  intro r hr
  obtain ⟨hDue, hNot⟩ := mem_dueToClose_round h hQuiet hr
  exact (waits_of_notMem_targetsOf h hDue hNot).2.1

/-- The hosts that leave are served as soon as no other is due. -/
theorem dueToClose_round_eq_nil (hQuiet : s.any .writable = false)
    (hLeaving : s.OnlyLeavingDue lookup) : (s.round lookup).dueToClose = [] := by
  refine List.eq_nil_iff_forall_not_mem.2 fun r hr => ?_
  obtain ⟨hDue, hNot⟩ := mem_dueToClose_round h hQuiet hr
  exact hNot (mem_targetsOf_of_onlyLeavingDue h hLeaving hDue)

end Round

section Rounds

variable {s : Snapshot} {lookup : NodeLookup} (h : s.Attended lookup)
include h

theorem attended_afterRounds (k : Nat) : (s.afterRounds lookup k).Attended lookup := by
  induction k with
  | zero => exact h
  | succ k ih => exact attended_round ih

theorem targetsOf_close_eq_nil (hDue : s.dueToClose = []) :
    (s.evaluate lookup).targetsOf .close = [] := by
  rw [targetsOf_close h, hDue]
  rfl

/-- After three rounds nothing is due, and it stays so. -/
theorem dueToClose_afterRounds_eq_nil (k : Nat) :
    (s.afterRounds lookup (k + 3)).dueToClose = [] := by
  induction k with
  | zero =>
    -- The first round stops the writers, the second serves the hosts that stay, the third the rest.
    have hFirst := any_writable_round h
    have hSecond := any_writable_round (attended_round h)
    exact dueToClose_round_eq_nil (attended_round (attended_round h)) hSecond
      (onlyLeavingDue_round (attended_round h) hFirst)
  | succ k ih =>
    have hNobody := targetsOf_close_eq_nil (attended_afterRounds h (k + 3)) ih
    show ((s.afterRounds lookup (k + 3)).round lookup).dueToClose = []
    rw [round_eq_self hNobody]
    exact ih

end Rounds

end Snapshot

/-- Closing for good converges.  A quasi-closed container on distinct nodes that answer and live is
evaluated round after round, and every close is carried out.  From the fourth evaluation on no close
goes out and the container is at rest; whenever no close goes out, it is at rest and the round changes
nothing.  Whoever is told to close, in any round, still takes writes or is quasi-closed at the highest
sequence. -/
theorem closes_converge_in_three_rounds (s : Snapshot) (lookup : NodeLookup)
    (hStage : s.container.state = .quasiClosed) (hNodes : (s.replicas.map Replica.node).Nodup)
    (hReached : ∀ r ∈ s.replicas, lookup.Reaches r.node) :
    (∀ k, 3 ≤ k → ((s.afterRounds lookup k).evaluate lookup).ofKind .close = []) ∧
      (∀ k, ((s.afterRounds lookup k).evaluate lookup).ofKind .close = [] →
        s.afterRounds lookup (k + 1) = s.afterRounds lookup k ∧ (s.afterRounds lookup k).AtRest) ∧
      ∀ k, ∀ d ∈ ((s.afterRounds lookup k).evaluate lookup).ofKind .close,
        ∃ r ∈ (s.afterRounds lookup k).replicas, d = .close s.id r.node ∧
          (r.state ∈ ReplicaState.writable ∨
            (r.state = .quasiClosed ∧ r.sequence = (s.afterRounds lookup k).maxSequence)) := by
  have hStart : s.Attended lookup := ⟨hStage, hNodes, hReached⟩
  have hAttended := Snapshot.attended_afterRounds hStart
  refine ⟨fun k hk => ?_, fun k hNone => ?_, fun k d hd => ?_⟩
  · obtain ⟨n, rfl⟩ := Nat.exists_eq_add_of_le' hk
    have hDue := Snapshot.dueToClose_afterRounds_eq_nil hStart n
    rw [Snapshot.ofKind_evaluate, Snapshot.part_close _ _ (hAttended _).distinct, hDue]
    rfl
  · have hNobody : ((s.afterRounds lookup k).evaluate lookup).targetsOf .close = [] := by
      rw [Evaluation.targetsOf, hNone]
      rfl
    have hDue := Snapshot.dueToClose_eq_nil_of_targetsOf_eq_nil (hAttended k) hNobody
    exact ⟨Snapshot.round_eq_self hNobody,
      Snapshot.atRest_of_dueToClose_eq_nil (hAttended k).stage hDue⟩
  · rw [Snapshot.ofKind_evaluate, Snapshot.part_close _ _ (hAttended k).distinct,
      Plan.directives_closing] at hd
    obtain ⟨n, hn, rfl⟩ := List.mem_map.1 hd
    obtain ⟨r, hr, rfl⟩ := List.mem_map.1 (List.mem_filter.1 hn).1
    have hId : (s.afterRounds lookup k).id = s.id :=
      congrArg Container.id (s.container_afterRounds lookup k)
    refine ⟨r, (Snapshot.dueToClose_sublist _).subset hr, by rw [hId], ?_⟩
    exact Snapshot.state_of_mem_dueToClose (hAttended k).stage hr

/-- Three rounds can be needed: the first stops the writer, the second closes it for good while the
host that leaves waits, and the third closes that one. -/
theorem closes_converge_in_three_rounds_of_three :
    let s := Snapshot.of ⟨⟨1⟩, .quasiClosed, 3, 0⟩
      [⟨"stays", .opened, 7, some "a", false⟩, ⟨"leaves", .quasiClosed, 7, some "b", false⟩,
        ⟨"lags", .unhealthy, 4, none, false⟩]
    let lookup : NodeLookup := fun n =>
      some ⟨if n = "leaves" then .decommissioning else .inService, .healthy, none⟩
    s.container.state = .quasiClosed ∧ (s.replicas.map Replica.node).Nodup ∧
      (∀ r ∈ s.replicas, lookup.Reaches r.node) ∧
      ((s.afterRounds lookup 2).evaluate lookup).ofKind .close = [.close ⟨1⟩ "leaves"] ∧
      ((s.afterRounds lookup 3).evaluate lookup).ofKind .close = [] ∧
      (s.afterRounds lookup 3).AtRest := by
  intro s lookup
  have hNodes : (s.replicas.map Replica.node).Nodup := by decide
  have hReached : ∀ r ∈ s.replicas, lookup.Reaches r.node := by decide
  obtain ⟨hNone, hRest, -⟩ := closes_converge_in_three_rounds s lookup rfl hNodes hReached
  have hLast := hNone 3 (Nat.le_refl 3)
  exact ⟨rfl, hNodes, hReached, by decide, hLast, (hRest 3 hLast).2⟩

end ReplicaUpkeep
