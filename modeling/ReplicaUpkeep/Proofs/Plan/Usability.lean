import ReplicaUpkeep.Proofs.Plan.Closing
import ReplicaUpkeep.Proofs.Plan.Copying
import ReplicaUpkeep.Proofs.Plan.Pruning

/-!
# Directives rest on usable nodes

Each planner looks nodes up by itself and accepts them by its own rule.  Whatever mix of failing, dead
and leaving nodes a snapshot meets, what goes out rests on nodes that carry a live replica and that
answer: who is told to act lives, and who is copied from lives and has not left the cluster.  Capacity
and verdict do not ask the registry at all.

Nothing here needs distinct nodes.  A node that occurs twice is usable or not as a whole.
-/

namespace ReplicaUpkeep

/-- The node carries a live replica of the snapshot and answers with a status that passes the test. -/
def Snapshot.Offers (s : Snapshot) (lookup : NodeLookup) (test : NodeStatus → Prop) (n : NodeId) :
    Prop :=
  ∃ r ∈ s.replicas, r.state ≠ .deleted ∧ r.node = n ∧ ∃ status, lookup n = some status ∧ test status

/-- The node lives. -/
def NodeStatus.Lives (status : NodeStatus) : Prop :=
  status.health ≠ .dead

/-- The node lives and has not left the cluster. -/
def NodeStatus.Keeps (status : NodeStatus) : Prop :=
  status.health ≠ .dead ∧ status.operational ≠ .decommissioned

namespace Snapshot

variable (s : Snapshot) (lookup : NodeLookup)

/-- Every node that the planner of closes looks at carries a good replica. -/
theorem exists_good_of_mem_closeTargets {n : NodeId} (h : n ∈ (s.closeTargets s.ruling).1) :
    ∃ r ∈ s.replicas, r.node = n ∧ r.state ∈ ReplicaState.good := by
  have hWritable : n ∈ s.nodesOf .writable → ∃ r ∈ s.replicas, r.node = n ∧
      r.state ∈ ReplicaState.good := by
    intro hn
    obtain ⟨r, hr, hNode⟩ := (s.mem_nodesOf _ n).1 hn
    obtain ⟨hMem, hState⟩ := (s.mem_select_inStates _ r).1 hr
    have hGood : ∀ x ∈ ReplicaState.writable, x ∈ ReplicaState.good := by decide
    exact ⟨r, hMem, hNode, hGood _ hState⟩
  have hLatest : ∀ states sequence, (∀ x ∈ states, x ∈ ReplicaState.good) →
      n ∈ s.nodesOf ((Selector.inStates states).both (.atSequence sequence)) →
        ∃ r ∈ s.replicas, r.node = n ∧ r.state ∈ ReplicaState.good := by
    intro states sequence hGood hn
    obtain ⟨r, hr, hNode⟩ := (s.mem_nodesOf _ n).1 hn
    obtain ⟨hMem, hState, -⟩ := (s.mem_select_both_atSequence states sequence r).1 hr
    exact ⟨r, hMem, hNode, hGood _ hState⟩
  cases hState : s.container.state with
  | quasiClosed =>
    simp only [closeTargets, ruling, hState, if_true] at h
    split at h
    · exact hWritable h
    · split at h
      · cases h
      · exact hLatest ReplicaState.sealed _ (by decide) (List.mem_filter.1 h).1
  | closing =>
    simp only [closeTargets, hState] at h
    exact hWritable h
  | closed =>
    simp only [closeTargets, hState] at h
    exact hLatest ReplicaState.unfinalized _ (by decide) h
  | opened => simp [closeTargets, hState] at h
  | deleting => simp [closeTargets, hState] at h
  | deleted => simp [closeTargets, hState] at h

/-- Who is told to close carries a good replica. -/
theorem exists_good_of_mem_close {d : Directive} (h : d ∈ (s.part lookup .close).directives)
    {n : NodeId} (hTarget : d.target = some n) :
    ∃ r ∈ s.replicas, r.node = n ∧ r.state ∈ ReplicaState.good := by
  rw [part, Plan.directives_closing] at h
  obtain ⟨m, hm, rfl⟩ := List.mem_map.1 h
  cases hTarget
  exact s.exists_good_of_mem_closeTargets (List.mem_filter.1 hm).1

theorem offers_of_mem_close {d : Directive} (h : d ∈ (s.part lookup .close).directives) :
    ∃ n, d.target = some n ∧ s.Offers lookup NodeStatus.Lives n := by
  rw [part, Plan.directives_closing] at h
  obtain ⟨n, hn, rfl⟩ := List.mem_map.1 h
  obtain ⟨hTarget, hFate⟩ := List.mem_filter.1 hn
  obtain ⟨status, hStatus, hLives, -⟩ :=
    (Plan.closeFate_eq_none_iff _ _ _).1 (of_decide_eq_true hFate)
  obtain ⟨r, hr, hNode, -⟩ := s.exists_good_of_mem_closeTargets hTarget
  exact ⟨n, rfl, r, hr, s.live r hr, hNode, status, hStatus, hLives⟩

theorem offers_of_mem_delete {d : Directive} (h : d ∈ (s.part lookup .delete).directives) :
    ∃ n, d.target = some n ∧ s.Offers lookup NodeStatus.Lives n := by
  rw [part] at h
  split at h
  · rw [Plan.directives_pruning] at h
    obtain ⟨r, hr, rfl⟩ := List.mem_map.1 h
    obtain ⟨⟨hMem, -⟩, status, hStatus, hLives⟩ :=
      (Plan.mem_candidates lookup s r).1 (Plan.mem_candidates_of_mem_chosen hr)
    exact ⟨r.node, rfl, r, hMem, s.live r hMem, rfl, status, hStatus, hLives⟩
  · simp [Plan.empty] at h

theorem offers_of_mem_replicate {d : Directive} (h : d ∈ (s.part lookup .replicate).directives) :
    (∃ n, s.Offers lookup NodeStatus.Keeps n) ∧
      ∀ n, d.source = some n → s.Offers lookup NodeStatus.Keeps n := by
  have hPool : ∀ r ∈ Plan.sourcePool lookup s, s.Offers lookup NodeStatus.Keeps r.node := by
    intro r hr
    obtain ⟨hMem, hUsable⟩ := Plan.isUsableSource_of_mem_sourcePool hr
    obtain ⟨status, hStatus, hKeeps⟩ := (Plan.isUsableSource_iff lookup r).1 hUsable
    exact ⟨r, hMem, s.live r hMem, rfl, status, hStatus, hKeeps⟩
  rw [part] at h
  split at h
  · obtain ⟨⟨r, hr⟩, hPinned⟩ := Plan.mem_directives_copying h
    refine ⟨⟨r.node, hPool r hr⟩, fun n hn => ?_⟩
    obtain ⟨only, hOnly, rfl⟩ := hPinned n hn
    exact hPool only (hOnly ▸ List.mem_singleton_self only)
  · simp [Plan.empty] at h

/-- Without a single answer nothing goes out. -/
theorem directives_evaluate_eq_nil (h : ∀ r ∈ s.replicas, lookup r.node = none) :
    (s.evaluate lookup).directives = [] := by
  have hNobody : ∀ test n, ¬ s.Offers lookup test n := by
    rintro test n ⟨r, hr, -, rfl, status, hStatus, -⟩
    rw [h r hr] at hStatus
    cases hStatus
  refine List.eq_nil_iff_forall_not_mem.2 fun d hd => ?_
  rw [mem_directives_evaluate] at hd
  cases hKind : d.kind with
  | close =>
    obtain ⟨n, -, hn⟩ := s.offers_of_mem_close lookup (hKind ▸ hd)
    exact hNobody _ n hn
  | replicate =>
    obtain ⟨⟨n, hn⟩, -⟩ := s.offers_of_mem_replicate lookup (hKind ▸ hd)
    exact hNobody _ n hn
  | delete =>
    obtain ⟨n, -, hn⟩ := s.offers_of_mem_delete lookup (hKind ▸ hd)
    exact hNobody _ n hn

end Snapshot

/-- Who is told to close or delete carries a live replica and lives.  A copy is asked for only when
some node with a live replica can serve as a source, and a pinned source is such a node.  When no node
of the snapshot answers nothing goes out, while capacity and verdict are the same for any two
registries. -/
theorem directives_rest_on_usable_nodes (s : Snapshot) (lookup : NodeLookup) :
    (∀ d ∈ (s.evaluate lookup).directives,
      (d.kind = .close ∨ d.kind = .delete →
        ∃ n, d.target = some n ∧ s.Offers lookup NodeStatus.Lives n) ∧
      (d.kind = .replicate →
        (∃ n, s.Offers lookup NodeStatus.Keeps n) ∧
          ∀ n, d.source = some n → s.Offers lookup NodeStatus.Keeps n)) ∧
    ((∀ r ∈ s.replicas, lookup r.node = none) → (s.evaluate lookup).directives = []) ∧
    ∀ other : NodeLookup,
      (s.evaluate lookup).capacity = (s.evaluate other).capacity ∧
        (s.evaluate lookup).verdict = (s.evaluate other).verdict := by
  refine ⟨fun d hd => ⟨?_, fun hKind => ?_⟩, s.directives_evaluate_eq_nil lookup,
    fun other => ⟨rfl, rfl⟩⟩
  · rw [s.mem_directives_evaluate] at hd
    rintro (hKind | hKind)
    · exact s.offers_of_mem_close lookup (hKind ▸ hd)
    · exact s.offers_of_mem_delete lookup (hKind ▸ hd)
  · rw [s.mem_directives_evaluate] at hd
    exact s.offers_of_mem_replicate lookup (hKind ▸ hd)

/-- The only replica is told to close and pinned as the source of its copy on a host that is leaving;
when that host does not answer, neither goes out. -/
theorem directives_rest_on_usable_nodes_of_one :
    let s := Snapshot.of ⟨⟨1⟩, .closed, 2, 7⟩ [⟨"a", .quasiClosed, 7, some "a", false⟩]
    let lookup : NodeLookup := fun _ => some ⟨.decommissioning, .stale, none⟩
    let silent : NodeLookup := fun _ => none
    (Directive.close ⟨1⟩ "a" ∈ (s.evaluate lookup).directives ∧
      ∃ n, some "a" = some n ∧ s.Offers lookup NodeStatus.Lives n) ∧
    (Directive.replicate ⟨1⟩ (some "a") ∈ (s.evaluate lookup).directives ∧
      s.Offers lookup NodeStatus.Keeps "a") ∧
    (∀ r ∈ s.replicas, silent r.node = none) ∧ (s.evaluate silent).directives = [] := by
  intro s lookup silent
  have hClose : Directive.close ⟨1⟩ "a" ∈ (s.evaluate lookup).directives := by decide
  have hCopy : Directive.replicate ⟨1⟩ (some "a") ∈ (s.evaluate lookup).directives := by decide
  have hSilent : ∀ r ∈ s.replicas, silent r.node = none := fun _ _ => rfl
  have hRest := (directives_rest_on_usable_nodes s lookup).1
  exact ⟨⟨hClose, (hRest _ hClose).1 (Or.inl rfl)⟩, ⟨hCopy, ((hRest _ hCopy).2 rfl).2 "a" rfl⟩,
    hSilent, (directives_rest_on_usable_nodes s silent).2.1 hSilent⟩

end ReplicaUpkeep
