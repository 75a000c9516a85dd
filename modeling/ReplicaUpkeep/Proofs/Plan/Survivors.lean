import ReplicaUpkeep.Proofs.Plan.Deletion
import ReplicaUpkeep.Proofs.Verdict.Finality

/-!
# What survives the deletes of one plan

The planner of deletes knows neither the verdict nor what a second look would decide.  Still, carrying
out all its deletes keeps a container that may be closed for good in that state, keeps as many good
replicas as wanted, and leaves nothing for a second plan to delete.

The highest sequence itself never goes: a good holder of it stays.  That holder need not be within
reach.  Holders are counted by the stage of the replica alone, so one on a dead node frees the others
to go, and the last theorem says exactly when all holders within reach do.
-/

namespace ReplicaUpkeep

namespace Snapshot

/-- Where nobody writes, the eligible replicas are the good ones that have the highest sequence. -/
theorem mem_eligible_of_quiet (s : Snapshot) (hQuiet : s.any .writable = false) (r : Replica) :
    r ∈ s.eligible ↔ r ∈ s.replicas ∧ s.IsLatestHolder r := by
  rw [eligible, Selector.sealed, mem_select_both_atSequence, IsLatestHolder]
  refine and_congr_right fun hr => and_congr_left fun _ => ?_
  constructor
  · exact ReplicaState.mem_good_of_mem_sealed
  · exact ReplicaState.mem_sealed_of_mem_good (s.any_writable_eq_false_iff.1 hQuiet r hr)

section Finality

variable (s : Snapshot) (lookup : NodeLookup) (hNodes : (s.replicas.map Replica.node).Nodup)

theorem any_writable_pruned (hQuiet : s.any .writable = false) :
    (s.pruned lookup).any .writable = false := by
  rw [any_writable_eq_false_iff] at hQuiet ⊢
  intro r hr
  rw [replicas_pruned] at hr
  exact hQuiet r (List.mem_filter.1 hr).1

include hNodes

theorem isLatestHolder_pruned_iff (r : Replica) :
    (s.pruned lookup).IsLatestHolder r ↔ s.IsLatestHolder r := by
  rw [IsLatestHolder, IsLatestHolder, s.maxSequence_pruned lookup hNodes]

theorem eligible_pruned_sublist : (s.pruned lookup).eligible.Sublist s.eligible := by
  have hKept : (s.pruned lookup).replicas.Sublist s.replicas := by
    rw [replicas_pruned]
    exact List.filter_sublist
  rw [eligible, eligible, s.maxSequence_pruned lookup hNodes]
  exact hKept.filter _

theorem eligible_pruned_ne_nil (hQuiet : s.any .writable = false) (h : s.eligible ≠ []) :
    (s.pruned lookup).eligible ≠ [] := by
  obtain ⟨r, hr⟩ := List.exists_mem_of_ne_nil _ h
  have hHolder := (s.mem_eligible_of_quiet hQuiet r).1 hr
  obtain ⟨q, hq, hLatest⟩ := s.exists_isLatestHolder_pruned lookup hNodes ⟨r, hHolder⟩
  have hEligible : q ∈ (s.pruned lookup).eligible := by
    rw [mem_eligible_of_quiet _ (s.any_writable_pruned lookup hQuiet)]
    exact ⟨hq, (s.isLatestHolder_pruned_iff lookup hNodes q).2 hLatest⟩
  exact List.ne_nil_of_mem hEligible

theorem factor_le_size_pruned (hFull : s.factor ≤ s.size) : s.factor ≤ (s.pruned lookup).size := by
  by_cases hPlanned : s.dueToDelete lookup = []
  · rwa [s.pruned_eq_self lookup hPlanned]
  · have hGood := s.factor_le_of_leftBy lookup hPlanned (s.leftBy_pruned lookup hNodes)
    exact Nat.le_trans hGood List.countP_le_length

/-- A container that may be closed for good still may when all deletes are carried out. -/
theorem stuck_pruned (h : s.verdict.stuck = false) :
    (s.pruned lookup).verdict.stuck = false := by
  rw [stuck_eq_false_iff_checks] at h ⊢
  obtain ⟨hQuiet, hFull, hEligible, hOrigins⟩ := h
  refine ⟨s.any_writable_pruned lookup hQuiet, s.factor_le_size_pruned lookup hNodes hFull,
    s.eligible_pruned_ne_nil lookup hNodes hQuiet hEligible, ?_⟩
  rw [Origins.isAmbiguous_ofReplicas_eq_false_iff_pairwise] at hOrigins ⊢
  exact hOrigins.sublist (s.eligible_pruned_sublist lookup hNodes)

end Finality

section Repetition

variable (s : Snapshot) (lookup : NodeLookup) (hNodes : (s.replicas.map Replica.node).Nodup)
include hNodes

theorem count_good_pruned :
    (s.dueToDelete lookup).length + (s.pruned lookup).count .good = s.count .good := by
  have hAll : (s.dueToDelete lookup).countP Selector.good.selects =
      (s.dueToDelete lookup).length := by
    refine List.countP_eq_length.2 fun r hr => ?_
    have hSealed := isSealed_of_mem_dueToDelete hr
    exact (Selector.selects_inStates_iff _ r).2 (ReplicaState.mem_good_of_mem_sealed hSealed)
  rw [count_eq_countP, count_eq_countP, ← hAll]
  exact s.countP_dueToDelete_add_countP_pruned lookup hNodes _

theorem latestHolders_pruned :
    (s.dueToDelete lookup).countP (fun r => r.sequence = s.maxSequence) +
        Plan.latestHolders (s.pruned lookup) = Plan.latestHolders s := by
  have hSplit := s.countP_dueToDelete_add_countP_pruned lookup hNodes
    (fun r => s.IsLatestHolder r)
  rw [s.countP_isLatestHolder_of_sealed fun r hr => isSealed_of_mem_dueToDelete hr] at hSplit
  rw [latestHolders_eq_countP, latestHolders_eq_countP, ← hSplit]
  simp only [s.isLatestHolder_pruned_iff lookup hNodes]

/-- A candidate that one plan spares although it lacks deletes is the last holder of the highest
sequence. -/
theorem latest_of_mem_candidates_pruned
    (hShort : (s.dueToDelete lookup).length < s.capacity.excess)
    (hStage : s.container.state.isRepairable = true) (hQuiet : s.any .writable = false)
    {r : Replica} (hr : r ∈ Plan.candidates lookup (s.pruned lookup)) :
    r.sequence = (s.pruned lookup).maxSequence ∧ Plan.latestHolders (s.pruned lookup) ≤ 1 := by
  obtain ⟨⟨hLeft, hSealed⟩, hReaches⟩ := (Plan.mem_candidates lookup _ r).1 hr
  obtain ⟨hMem, hSpared⟩ := (s.mem_pruned lookup hNodes r).1 hLeft
  -- It was a candidate of the first plan too, which therefore passed over it.
  have hCandidate : r ∈ Plan.deletionOrder (Plan.candidates lookup s) := by
    rw [(Plan.deletionOrder_perm _).mem_iff, Plan.mem_candidates]
    exact ⟨⟨hMem, hSealed⟩, hReaches⟩
  have hHolders := s.latestHolders_pruned lookup hNodes
  rw [dueToDelete_eq_chosen hStage hQuiet] at hShort hSpared hHolders
  obtain ⟨hMax, hLast⟩ := Plan.latest_of_not_mem_choose hShort hCandidate hSpared
  rw [s.maxSequence_pruned lookup hNodes]
  refine ⟨hMax, ?_⟩
  rw [Plan.chosen] at hHolders
  omega

/-- Once the deletes of a plan are carried out, no more are due. -/
theorem dueToDelete_pruned : (s.pruned lookup).dueToDelete lookup = [] := by
  by_cases hPlanned : s.dueToDelete lookup = []
  · rw [s.pruned_eq_self lookup hPlanned, hPlanned]
  · obtain ⟨hStage, hQuiet⟩ := allowed_of_dueToDelete_ne_nil hPlanned
    rcases Nat.lt_or_eq_of_le (s.length_dueToDelete_le lookup) with hShort | hFull
    · -- The first plan ran out of candidates; it can only have spared the last holder.
      have hStageLeft : (s.pruned lookup).container.state.isRepairable = true := hStage
      rw [dueToDelete_eq_chosen hStageLeft (s.any_writable_pruned lookup hQuiet), Plan.chosen]
      refine Plan.choose_eq_nil fun r hr => ?_
      rw [(Plan.deletionOrder_perm _).mem_iff] at hr
      exact s.latest_of_mem_candidates_pruned lookup hNodes hShort hStage hQuiet hr
    · -- The first plan took the whole excess.
      have hGood := s.count_good_pruned lookup hNodes
      have hFactor : (s.pruned lookup).factor = s.factor := rfl
      have hLength := (s.pruned lookup).length_dueToDelete_le lookup
      simp only [Capacity.excess, capacity] at hFull hLength
      exact List.eq_nil_of_length_eq_zero (by omega)

end Repetition

section Reach

variable {s : Snapshot} {lookup : NodeLookup}

theorem mem_candidates_of_isLatestHolder (hQuiet : s.any .writable = false) {r : Replica}
    (hr : r ∈ s.replicas) (hHolder : s.IsLatestHolder r) (hReaches : lookup.Reaches r.node) :
    r ∈ Plan.candidates lookup s := by
  have hEligible := (s.mem_eligible_of_quiet hQuiet r).2 ⟨hr, hHolder⟩
  exact (Plan.mem_candidates lookup s r).2 ⟨⟨hr, ((s.mem_eligible r).1 hEligible).2.1⟩, hReaches⟩

theorem mem_of_mem_deletionOrder {r : Replica}
    (h : r ∈ Plan.deletionOrder (Plan.candidates lookup s)) :
    r ∈ s.replicas ∧ r.state ∈ ReplicaState.good ∧ lookup.Reaches r.node := by
  rw [(Plan.deletionOrder_perm _).mem_iff, Plan.mem_candidates] at h
  exact ⟨h.1.1, ReplicaState.mem_good_of_mem_sealed h.1.2, h.2⟩

/-- A good holder out of reach is never a candidate, so nobody is passed over as the last one. -/
theorem dueToDelete_eq_take (hStage : s.container.state.isRepairable = true)
    (hQuiet : s.any .writable = false)
    (hBeyond : ∃ r ∈ s.replicas, s.IsLatestHolder r ∧ ¬ lookup.Reaches r.node) :
    s.dueToDelete lookup =
      (Plan.deletionOrder (Plan.candidates lookup s)).take s.capacity.excess := by
  rw [dueToDelete_eq_chosen hStage hQuiet, Plan.chosen]
  refine Plan.choose_eq_take (Or.inr ?_)
  obtain ⟨r, hr, hHolder, hBeyond⟩ := hBeyond
  -- The holder out of reach is counted without being a candidate.
  obtain ⟨others, hOthers⟩ := (Plan.candidates_sublist lookup s).exists_perm_append
  have hOther : r ∈ others := by
    refine (List.mem_append.1 (hOthers.mem_iff.1 hr)).resolve_left fun h => ?_
    exact hBeyond ((Plan.mem_candidates lookup s r).1 h).2
  have hSome : 0 < others.countP (fun r => s.IsLatestHolder r) :=
    List.countP_pos_iff.2 ⟨r, hOther, by simpa using hHolder⟩
  have hLatest := s.countP_isLatestHolder_of_sealed fun q hq =>
    ((Plan.mem_candidates lookup s q).1 hq).1.2
  rw [(Plan.deletionOrder_perm _).countP_eq, ← hLatest, latestHolders_eq_countP, hOthers.countP_eq,
    List.countP_append]
  omega

/-- With a good holder out of reach, those within reach stay as far as the excess does not take them. -/
theorem exists_reached_holder_pruned_iff (hStage : s.container.state.isRepairable = true)
    (hQuiet : s.any .writable = false) (hNodes : (s.replicas.map Replica.node).Nodup)
    (hBeyond : ∃ r ∈ s.replicas, s.IsLatestHolder r ∧ ¬ lookup.Reaches r.node) :
    (∃ r ∈ (s.pruned lookup).replicas, s.IsLatestHolder r ∧ lookup.Reaches r.node) ↔
      ∃ r ∈ (Plan.deletionOrder (Plan.candidates lookup s)).drop s.capacity.excess,
        r.sequence = s.maxSequence := by
  have hTaken := dueToDelete_eq_take hStage hQuiet hBeyond
  have hDistinct : (Plan.deletionOrder (Plan.candidates lookup s)).Nodup :=
    (Plan.deletionOrder_perm _).nodup_iff.2 (hNodes.of_map.sublist (Plan.candidates_sublist lookup s))
  constructor
  · rintro ⟨r, hr, hHolder, hReaches⟩
    obtain ⟨hMem, hSpared⟩ := (s.mem_pruned lookup hNodes r).1 hr
    have hOrder : r ∈ Plan.deletionOrder (Plan.candidates lookup s) :=
      (Plan.deletionOrder_perm _).mem_iff.2
        (mem_candidates_of_isLatestHolder hQuiet hMem hHolder hReaches)
    rw [← List.take_append_drop s.capacity.excess (Plan.deletionOrder _), List.mem_append,
      ← hTaken] at hOrder
    exact ⟨r, hOrder.resolve_left hSpared, hHolder.2⟩
  · rintro ⟨r, hr, hMax⟩
    obtain ⟨hMem, hGood, hReaches⟩ := mem_of_mem_deletionOrder (List.mem_of_mem_drop hr)
    have hSpared : r ∉ s.dueToDelete lookup := by
      rw [hTaken]
      exact fun h => List.disjoint_take_drop hDistinct (Nat.le_refl _) h hr
    exact ⟨r, (s.mem_pruned lookup hNodes r).2 ⟨hMem, hSpared⟩, ⟨hGood, hMax⟩, hReaches⟩

end Reach

end Snapshot

/-- Deletes never undo finality.  Where nodes are distinct and the verdict is not stuck, it is not
stuck either once all deletes are carried out, at the same highest sequence and with some of the same
eligible nodes.  And whenever anything is deleted at all, at least as many good replicas stay as
wanted, whichever replica of its node each delete takes. -/
theorem deletes_keep_finality (s : Snapshot) (lookup : NodeLookup) :
    ((s.replicas.map Replica.node).Nodup → s.verdict.stuck = false →
      (s.pruned lookup).verdict.stuck = false ∧
        (s.pruned lookup).verdict.maxSequence = s.verdict.maxSequence ∧
        (s.pruned lookup).verdict.eligible ≠ [] ∧
        (s.pruned lookup).verdict.eligible.Sublist s.verdict.eligible) ∧
      ((s.evaluate lookup).ofKind .delete ≠ [] →
        (∃ left, s.LeftBy ((s.evaluate lookup).targetsOf .delete) left) ∧
        (∀ left, s.LeftBy ((s.evaluate lookup).targetsOf .delete) left →
          s.factor ≤ left.countP Selector.good.selects) ∧
        ((s.replicas.map Replica.node).Nodup → s.factor ≤ (s.pruned lookup).capacity.good)) := by
  constructor
  · intro hNodes hStuck
    obtain ⟨hQuiet, -, hEligible, -⟩ := s.stuck_eq_false_iff_checks.1 hStuck
    have hSome := s.eligible_pruned_ne_nil lookup hNodes hQuiet hEligible
    refine ⟨s.stuck_pruned lookup hNodes hStuck, s.maxSequence_pruned lookup hNodes, ?_, ?_⟩
    · simpa [Snapshot.verdict] using hSome
    · exact (s.eligible_pruned_sublist lookup hNodes).map Replica.node
  · intro hAny
    have hPlanned : s.dueToDelete lookup ≠ [] := by
      rw [s.ofKind_evaluate, s.directives_part_delete] at hAny
      simpa using hAny
    refine ⟨s.exists_leftBy lookup, fun left hLeft => s.factor_le_of_leftBy lookup hPlanned hLeft,
      fun hNodes => ?_⟩
    have hGood := s.factor_le_of_leftBy lookup hPlanned (s.leftBy_pruned lookup hNodes)
    rwa [← Snapshot.count_eq_countP] at hGood

/-- Of four eligible replicas two are in excess; both go although one of them is closed already, and
the two that stay may be closed for good. -/
theorem deletes_keep_finality_of_four :
    let s := Snapshot.of ⟨⟨1⟩, .quasiClosed, 2, 0⟩
      [⟨"a", .closed, 12, some "a", true⟩, ⟨"b", .quasiClosed, 12, some "b", false⟩,
        ⟨"c", .quasiClosed, 12, some "c", false⟩, ⟨"d", .quasiClosed, 12, some "d", false⟩]
    let lookup : NodeLookup := fun n => if n = "c" then none else some ⟨.inService, .healthy, none⟩
    (s.replicas.map Replica.node).Nodup ∧ s.verdict.stuck = false ∧
      (s.evaluate lookup).ofKind .delete ≠ [] ∧
      (s.pruned lookup).verdict.stuck = false ∧ (s.pruned lookup).verdict.eligible ≠ [] ∧
      s.factor ≤ (s.pruned lookup).capacity.good := by
  intro s lookup
  have hNodes : (s.replicas.map Replica.node).Nodup := by decide
  have hStuck : s.verdict.stuck = false := by decide
  have hAny : (s.evaluate lookup).ofKind .delete ≠ [] := by decide
  obtain ⟨hFinal, hEnough⟩ := deletes_keep_finality s lookup
  obtain ⟨hStill, -, hSome, -⟩ := hFinal hNodes hStuck
  exact ⟨hNodes, hStuck, hAny, hStill, hSome, (hEnough hAny).2.2 hNodes⟩

/-- Deletes are settled in one round: where nodes are distinct, nothing more is deleted once all
deletes of a plan are carried out, at every stage of the container and whatever the registry can
answer. -/
theorem deletes_settle_at_once (s : Snapshot) (hNodes : (s.replicas.map Replica.node).Nodup)
    (lookup : NodeLookup) : ((s.pruned lookup).evaluate lookup).ofKind .delete = [] := by
  rw [Snapshot.ofKind_evaluate, Snapshot.directives_part_delete,
    s.dueToDelete_pruned lookup hNodes, List.map_nil]

/-- Two of three good replicas are in excess.  One goes, the last holder of the highest sequence is
passed over and the third is out of reach; the container stays over its factor, and still nothing more
goes. -/
theorem deletes_settle_at_once_of_three :
    let s := Snapshot.of ⟨⟨1⟩, .closed, 1, 10⟩
      [⟨"a", .closed, 10, some "a", false⟩, ⟨"b", .closed, 5, some "b", false⟩,
        ⟨"c", .quasiClosed, 4, some "c", false⟩]
    let lookup : NodeLookup := fun n =>
      some ⟨.inService, if n = "b" then .dead else .healthy, none⟩
    (s.replicas.map Replica.node).Nodup ∧
      (s.evaluate lookup).ofKind .delete = [.delete ⟨1⟩ "c"] ∧
      (s.pruned lookup).capacity.isOver = true ∧
      ((s.pruned lookup).evaluate lookup).ofKind .delete = [] := by
  intro s lookup
  have hNodes : (s.replicas.map Replica.node).Nodup := by decide
  exact ⟨hNodes, by decide, by decide, deletes_settle_at_once s hNodes lookup⟩

/-- The highest sequence outlasts all deletes: a good replica that has it stays.  Where one within
reach had it, one within reach still has it exactly when a replica may still be written to (nothing is
deleted then), or no good holder is out of reach, or a holder within reach stands in the order of
deletion behind as many candidates as are in excess. -/
theorem latest_holder_outlasts_deletes (s : Snapshot) (lookup : NodeLookup)
    (hStage : s.container.state.isRepairable = true)
    (hNodes : (s.replicas.map Replica.node).Nodup)
    (hHeld : ∃ r ∈ s.replicas, s.IsLatestHolder r ∧ lookup.Reaches r.node) :
    (∃ r ∈ (s.pruned lookup).replicas, s.IsLatestHolder r) ∧
      ((∃ r ∈ (s.pruned lookup).replicas, s.IsLatestHolder r ∧ lookup.Reaches r.node) ↔
        s.any .writable = true ∨
          (∀ r ∈ s.replicas, s.IsLatestHolder r → lookup.Reaches r.node) ∨
            ∃ r ∈ (Plan.deletionOrder (Plan.candidates lookup s)).drop s.capacity.excess,
              r.sequence = s.maxSequence) := by
  have hHolders : ∃ r ∈ s.replicas, s.IsLatestHolder r := hHeld.imp fun r h => ⟨h.1, h.2.1⟩
  obtain ⟨q, hq, hLatest⟩ := s.exists_isLatestHolder_pruned lookup hNodes hHolders
  refine ⟨⟨q, hq, hLatest⟩, ?_⟩
  by_cases hWritten : s.any .writable = true
  · rw [s.pruned_eq_self lookup (Snapshot.dueToDelete_eq_nil hWritten)]
    exact iff_of_true hHeld (Or.inl hWritten)
  · by_cases hAll : ∀ r ∈ s.replicas, s.IsLatestHolder r → lookup.Reaches r.node
    · have hReaches := hAll q ((s.mem_pruned lookup hNodes q).1 hq).1 hLatest
      exact iff_of_true ⟨q, hq, hLatest, hReaches⟩ (Or.inr (Or.inl hAll))
    · have hBeyond : ∃ r ∈ s.replicas, s.IsLatestHolder r ∧ ¬ lookup.Reaches r.node := by
        simpa using hAll
      have hQuiet : s.any .writable = false := by simpa using hWritten
      rw [Snapshot.exists_reached_holder_pruned_iff hStage hQuiet hNodes hBeyond]
      simp only [hWritten, hAll, false_or, Bool.false_eq_true]

/-- The excess of one takes the replica that lags behind, so the holder within reach stays beside the
one on a dead node. -/
theorem latest_holder_outlasts_deletes_of_three :
    let s := Snapshot.of ⟨⟨1⟩, .closed, 2, 10⟩
      [⟨"a", .closed, 10, some "a", false⟩, ⟨"b", .closed, 10, some "b", false⟩,
        ⟨"c", .closed, 5, some "c", false⟩]
    let lookup : NodeLookup := fun n =>
      some ⟨.inService, if n = "a" then .dead else .healthy, none⟩
    s.container.state.isRepairable = true ∧ (s.replicas.map Replica.node).Nodup ∧
      (∃ r ∈ s.replicas, s.IsLatestHolder r ∧ lookup.Reaches r.node) ∧
      (s.evaluate lookup).ofKind .delete = [.delete ⟨1⟩ "c"] ∧
      (∃ r ∈ (s.pruned lookup).replicas, s.IsLatestHolder r) ∧
      ∃ r ∈ (s.pruned lookup).replicas, s.IsLatestHolder r ∧ lookup.Reaches r.node := by
  intro s lookup
  have hNodes : (s.replicas.map Replica.node).Nodup := by decide
  have hHeld : ∃ r ∈ s.replicas, s.IsLatestHolder r ∧ lookup.Reaches r.node := by decide
  have hBehind : ∃ r ∈ (Plan.deletionOrder (Plan.candidates lookup s)).drop s.capacity.excess,
      r.sequence = s.maxSequence := by decide
  obtain ⟨hSome, hReached⟩ := latest_holder_outlasts_deletes s lookup rfl hNodes hHeld
  exact ⟨rfl, hNodes, hHeld, by decide, hSome, hReached.2 (Or.inr (Or.inr hBehind))⟩

/-- The exception is a real one.  Two closed replicas have the highest sequence and one is in excess;
the one within reach goes, and the one that stays lies on a dead node. -/
theorem latest_data_left_on_dead_node :
    ¬ ∀ (s : Snapshot) (lookup : NodeLookup),
      s.container.state.isRepairable = true → (s.replicas.map Replica.node).Nodup →
        (∃ r ∈ s.replicas, s.IsLatestHolder r ∧ lookup.Reaches r.node) →
          ∃ r ∈ (s.pruned lookup).replicas, s.IsLatestHolder r ∧ lookup.Reaches r.node := by
  intro hNever
  let s := Snapshot.of ⟨⟨1⟩, .closed, 1, 10⟩
    [⟨"a", .closed, 10, some "a", false⟩, ⟨"b", .closed, 10, some "b", false⟩]
  let lookup : NodeLookup := fun n => some ⟨.inService, if n = "a" then .dead else .healthy, none⟩
  have hHeld : ∃ r ∈ s.replicas, s.IsLatestHolder r ∧ lookup.Reaches r.node := by decide
  have hGone : ¬ ∃ r ∈ (s.pruned lookup).replicas, s.IsLatestHolder r ∧ lookup.Reaches r.node := by
    decide
  exact hGone (hNever s lookup rfl (by decide) hHeld)

end ReplicaUpkeep
