import ReplicaUpkeep.Proofs.Plan.Parts
import ReplicaUpkeep.Proofs.Verdict.Finality

/-!
# Closing exactly what is due

Which replicas are due to close is a question of the container's stage and of the replicas; which of
them are asked is a question of the nodes.  The planner looks at the nodes twice, since whether one
host may wait depends on whether another one stays.  Here each due node is given one fate: it is
asked, or it is withheld for one reason.  The plan is the list of these fates, no node is lost between
the two looks, and a host is never made to wait when nobody else is asked.
-/

namespace ReplicaUpkeep

/-- The replicas that are due to close, in the order of their nodes. -/
def Snapshot.dueToClose (s : Snapshot) : List Replica :=
  match s.container.state with
  | .closing => s.select .writable
  | .quasiClosed =>
    if s.any .writable then s.select .writable
    else if s.verdict.stuck then []
    else s.eligible.filter (fun r => r.state ≠ .closed)
  | .closed =>
    s.replicas.filter (fun r =>
      r.state ∈ ReplicaState.unfinalized ∧ r.sequence = s.container.sequence)
  | _ => []

/-- Is closing what is due final? -/
def Snapshot.isFinal (s : Snapshot) : Bool :=
  s.container.state = .quasiClosed && !s.verdict.stuck

namespace Plan

/-- What becomes of a node that is due: nothing stands against asking it, or it is withheld.  `waits`
says of the nodes that answer and live which ones wait. -/
def closeFate (lookup : NodeLookup) (waits : NodeId × NodeStatus → Bool) (node : NodeId) :
    Option WithholdReason :=
  match lookup node with
  | none => some .registryUnavailable
  | some status =>
    if status.canReceive then
      if waits (node, status) then some .decommissioningHost else none
    else some .nodeDead

/-- The host is leaving, and one of the nodes to close lies on a host that stays. -/
def waitsForOther (lookup : NodeLookup) (targets : List NodeId) (final : Bool)
    (a : NodeId × NodeStatus) : Bool :=
  final && (reachable lookup targets).any (fun a => !a.2.operational.isDecommission) &&
    a.2.operational.isDecommission

section Fates

variable (lookup : NodeLookup) (waits : NodeId × NodeStatus → Bool)

theorem mem_reachable (nodes : List NodeId) (a : NodeId × NodeStatus) :
    a ∈ reachable lookup nodes ↔
      a.1 ∈ nodes ∧ lookup a.1 = some a.2 ∧ a.2.canReceive = true := by
  simp only [reachable, List.mem_filterMap, Option.map_eq_some_iff, Option.filter_eq_some_iff]
  constructor
  · rintro ⟨n, hn, status, ⟨hLookup, hReceives⟩, rfl⟩
    exact ⟨hn, hLookup, hReceives⟩
  · rintro ⟨hn, hLookup, hReceives⟩
    exact ⟨a.1, hn, a.2, ⟨hLookup, hReceives⟩, rfl⟩

/-- The nodes that are asked are those without a reason against it, in the given order. -/
theorem filter_reachable_map_fst (nodes : List NodeId) :
    ((reachable lookup nodes).filter (fun a => !waits a)).map Prod.fst =
      nodes.filter (fun n => closeFate lookup waits n = none) := by
  induction nodes with
  | nil => rfl
  | cons n rest ih =>
    rw [reachable, List.filterMap_cons, ← reachable, List.filter_cons]
    cases hLookup : lookup n with
    | none => simpa [closeFate, hLookup] using ih
    | some status =>
      by_cases hReceives : status.canReceive = true
      · by_cases hWaits : waits (n, status) = true
        · simpa [closeFate, hLookup, hReceives, hWaits, Option.filter] using ih
        · simpa [closeFate, hLookup, hReceives, hWaits, Option.filter] using ih
      · simpa [closeFate, hLookup, hReceives, Option.filter] using ih

/-- What the two looks withhold together is what the fates withhold, up to order. -/
theorem withheld_perm_fates (nodes : List NodeId) :
    (nodes.filterMap (fun n =>
        (closeRefusal? lookup n).map (fun reason => (⟨.close, some n, reason⟩ : Withheld))) ++
      ((reachable lookup nodes).filter waits).map
        (fun a => (⟨.close, some a.1, .decommissioningHost⟩ : Withheld))).Perm
      (nodes.filterMap (fun n =>
        (closeFate lookup waits n).map (fun reason => ⟨.close, some n, reason⟩))) := by
  induction nodes with
  | nil => exact List.Perm.refl _
  | cons n rest ih =>
    rw [reachable, List.filterMap_cons, List.filterMap_cons, List.filterMap_cons, ← reachable]
    cases hLookup : lookup n with
    | none => simpa [closeRefusal?, closeFate, hLookup] using ih
    | some status =>
      by_cases hReceives : status.canReceive = true
      · by_cases hWaits : waits (n, status) = true
        · simp only [closeRefusal?, closeFate, hLookup, hReceives, hWaits, if_true, Option.filter,
            Option.map_none, Option.map_some, List.filter_cons, List.map_cons]
          -- A host that waits has its place among the fates, but stands behind all refusals here.
          exact List.perm_middle.trans (ih.cons _)
        · simpa [closeRefusal?, closeFate, hLookup, hReceives, hWaits, Option.filter] using ih
      · simpa [closeRefusal?, closeFate, hLookup, hReceives, Option.filter] using ih

/-- Every node has one fate: those that are asked and those that are withheld are all of them. -/
theorem asked_append_withheld_perm (nodes : List NodeId) :
    ((nodes.filter (fun n => closeFate lookup waits n = none)).map some ++
      (nodes.filterMap (fun n => (closeFate lookup waits n).map
        (fun reason => (⟨.close, some n, reason⟩ : Withheld)))).map Withheld.node).Perm
      (nodes.map some) := by
  induction nodes with
  | nil => exact List.Perm.refl _
  | cons n rest ih =>
    rw [List.filter_cons, List.filterMap_cons]
    cases hFate : closeFate lookup waits n with
    | none => simpa using ih
    | some reason =>
      simp only [Option.map_some, List.map_cons, reduceCtorEq, decide_false,
        Bool.false_eq_true, if_false]
      exact List.perm_middle.trans (ih.cons _)

theorem closeFate_eq_registryUnavailable_iff (n : NodeId) :
    closeFate lookup waits n = some .registryUnavailable ↔ lookup n = none := by
  rw [closeFate]
  cases lookup n with
  | none => simp
  | some status => by_cases h : status.canReceive = true <;> simp [h]

theorem closeFate_eq_nodeDead_iff (n : NodeId) :
    closeFate lookup waits n = some .nodeDead ↔
      ∃ status, lookup n = some status ∧ status.health = .dead := by
  rw [closeFate]
  cases lookup n with
  | none => simp
  | some status => by_cases h : status.health = .dead <;> simp [NodeStatus.canReceive, h]

theorem closeFate_eq_decommissioningHost_iff (n : NodeId) :
    closeFate lookup waits n = some .decommissioningHost ↔
      ∃ status, lookup n = some status ∧ status.health ≠ .dead ∧ waits (n, status) = true := by
  rw [closeFate]
  cases lookup n with
  | none => simp
  | some status => by_cases h : status.health = .dead <;> simp [NodeStatus.canReceive, h]

theorem closeFate_eq_none_iff (n : NodeId) :
    closeFate lookup waits n = none ↔
      ∃ status, lookup n = some status ∧ status.health ≠ .dead ∧ waits (n, status) = false := by
  rw [closeFate]
  cases lookup n with
  | none => simp
  | some status => by_cases h : status.health = .dead <;> simp [NodeStatus.canReceive, h]

/-- A close never lacks a source. -/
theorem closeFate_ne_noSource (n : NodeId) : closeFate lookup waits n ≠ some .noSource := by
  rw [closeFate]
  cases lookup n with
  | none => simp
  | some status => by_cases h : status.canReceive = true <;> simp [h]

end Fates

section Plans

variable (lookup : NodeLookup) (id : ContainerId) (targets : List NodeId) (final : Bool)

theorem directives_closing :
    (closing lookup id targets final).directives =
      (targets.filter (fun n =>
        closeFate lookup (waitsForOther lookup targets final) n = none)).map
          (Directive.close id) := by
  rw [← filter_reachable_map_fst, List.map_map]
  rfl

theorem withheld_closing_perm :
    (closing lookup id targets final).withheld.Perm
      (targets.filterMap (fun n =>
        (closeFate lookup (waitsForOther lookup targets final) n).map
          (fun reason => ⟨.close, some n, reason⟩))) :=
  withheld_perm_fates lookup (waitsForOther lookup targets final) targets

theorem mem_withheld_closing (w : Withheld) :
    w ∈ (closing lookup id targets final).withheld ↔
      ∃ n ∈ targets, ∃ reason,
        closeFate lookup (waitsForOther lookup targets final) n = some reason ∧
          w = ⟨.close, some n, reason⟩ := by
  rw [(withheld_closing_perm lookup id targets final).mem_iff]
  simp only [List.mem_filterMap, Option.map_eq_some_iff, @eq_comm _ _ w]

/-- Every target is asked or withheld, once for each time that it is a target. -/
theorem closing_perm :
    ((closing lookup id targets final).directives.map Directive.target ++
      (closing lookup id targets final).withheld.map Withheld.node).Perm
        (targets.map some) := by
  have hAsked : (closing lookup id targets final).directives.map Directive.target =
      (targets.filter (fun n =>
        closeFate lookup (waitsForOther lookup targets final) n = none)).map some := by
    rw [directives_closing, List.map_map]
    rfl
  rw [hAsked]
  exact (((withheld_closing_perm lookup id targets final).map Withheld.node).append_left _).trans
    (asked_append_withheld_perm lookup _ targets)

/-- A leaving host waits when closing is final and another target answers, lives and stays. -/
theorem waitsForOther_iff (n : NodeId) (status : NodeStatus) :
    waitsForOther lookup targets final (n, status) = true ↔
      final = true ∧ status.operational.isDecommission = true ∧
        ∃ m ∈ targets, ∃ other, lookup m = some other ∧ other.health ≠ .dead ∧
          other.operational.isDecommission = false := by
  simp only [waitsForOther, Bool.and_eq_true, List.any_eq_true, mem_reachable, Prod.exists,
    Bool.not_eq_true', NodeStatus.canReceive, decide_eq_true_eq]
  constructor
  · rintro ⟨⟨hFinal, m, other, ⟨hm, hOther, hLives⟩, hStays⟩, hLeaves⟩
    exact ⟨hFinal, hLeaves, m, hm, other, hOther, hLives, hStays⟩
  · rintro ⟨hFinal, hLeaves, m, hm, other, hOther, hLives, hStays⟩
    exact ⟨⟨hFinal, m, other, ⟨hm, hOther, hLives⟩, hStays⟩, hLeaves⟩

/-- When a host waits, somebody is asked. -/
theorem directives_closing_ne_nil {n : NodeId}
    (h : closeFate lookup (waitsForOther lookup targets final) n = some .decommissioningHost) :
    (closing lookup id targets final).directives ≠ [] := by
  obtain ⟨status, -, -, hWaits⟩ := (closeFate_eq_decommissioningHost_iff _ _ _).1 h
  obtain ⟨-, -, m, hm, other, hOther, hLives, hStays⟩ := (waitsForOther_iff _ _ _ _ _).1 hWaits
  -- The host that stays does not wait itself, so nothing stands against asking it.
  have hGoes : waitsForOther lookup targets final (m, other) = false := by
    simp [waitsForOther, hStays]
  have hAsked : closeFate lookup (waitsForOther lookup targets final) m = none :=
    (closeFate_eq_none_iff _ _ _).2 ⟨other, hOther, hLives, hGoes⟩
  rw [directives_closing]
  refine List.ne_nil_of_mem (a := Directive.close id m) (List.mem_map_of_mem ?_)
  simp [hm, hAsked]

end Plans

end Plan

namespace Snapshot

variable (s : Snapshot)

theorem dueToClose_sublist : s.dueToClose.Sublist s.replicas := by
  rw [dueToClose]
  split
  · exact List.filter_sublist
  · split
    · exact List.filter_sublist
    · split
      · exact List.nil_sublist _
      · exact List.filter_sublist.trans List.filter_sublist
  · exact List.filter_sublist
  · exact List.nil_sublist _

/-- The planner's targets are the nodes that are due. -/
theorem closeTargets_ruling (h : (s.replicas.map Replica.node).Nodup) :
    s.closeTargets s.ruling = (s.dueToClose.map Replica.node, s.isFinal) := by
  cases hState : s.container.state with
  | quasiClosed =>
    by_cases hAny : s.any .writable = true
    · -- Closing what is still written to is never final: the verdict is stuck then.
      simp [closeTargets, ruling, dueToClose, isFinal, hState, blockingOpen_eq_any, hAny,
        s.stuck_of_any_writable hAny]
      rfl
    · by_cases hStuck : s.verdict.stuck = true
      · simp [closeTargets, ruling, dueToClose, isFinal, hState, blockingOpen_eq_any, hAny, hStuck]
      · simp [closeTargets, ruling, dueToClose, isFinal, hState, blockingOpen_eq_any, hAny, hStuck,
          s.finalizeTargets_eq h]
  | closed =>
    simp only [closeTargets, dueToClose, isFinal, hState, nodesOf, select]
    congr 2
    refine List.filter_congr fun r hr => ?_
    rw [Bool.eq_iff_iff, Selector.unfinalized, Selector.selects_both_atSequence_iff]
    simp
  | closing => simp [closeTargets, dueToClose, isFinal, hState, nodesOf]
  | opened => simp [closeTargets, dueToClose, isFinal, hState]
  | deleting => simp [closeTargets, dueToClose, isFinal, hState]
  | deleted => simp [closeTargets, dueToClose, isFinal, hState]

end Snapshot

/-- What is asked and what is withheld are together exactly the closes that are due. -/
structure ClosesExactly (s : Snapshot) (lookup : NodeLookup) (asked : List Directive)
    (held : List Withheld) : Prop where
  /-- Each due node occurs once, asked or withheld, and no other node occurs. -/
  eachOnce : (s.dueToClose.map Replica.node).Nodup ∧
    (asked.map Directive.target ++ held.map Withheld.node).Perm
      (s.dueToClose.map (fun r => some r.node))
  ascending : ∃ nodes : List NodeId,
    nodes.Pairwise (· < ·) ∧ asked = nodes.map (Directive.close s.id)
  registryUnavailable : ∀ r ∈ s.dueToClose,
    ⟨.close, some r.node, .registryUnavailable⟩ ∈ held ↔ lookup r.node = none
  nodeDead : ∀ r ∈ s.dueToClose,
    ⟨.close, some r.node, .nodeDead⟩ ∈ held ↔
      ∃ status, lookup r.node = some status ∧ status.health = .dead
  /-- A leaving host waits only when closing is final and another due node lives on a host that
  stays. -/
  decommissioningHost : ∀ r ∈ s.dueToClose,
    ⟨.close, some r.node, .decommissioningHost⟩ ∈ held ↔
      (s.container.state = .quasiClosed ∧ s.verdict.stuck = false) ∧
        (∃ status, lookup r.node = some status ∧ status.health ≠ .dead ∧
          status.operational.isDecommission = true) ∧
        ∃ q ∈ s.dueToClose, q.node ≠ r.node ∧ ∃ other, lookup q.node = some other ∧
          other.health ≠ .dead ∧ other.operational.isDecommission = false
  noOtherReason : ∀ w ∈ held, w.reason ≠ .noSource
  /-- No host is made to wait unless another one is asked. -/
  someAsked : (∃ w ∈ held, w.reason = .decommissioningHost) → asked ≠ []

namespace Snapshot

variable (s : Snapshot) (lookup : NodeLookup)

/-- The part of the plan that closes, in terms of what is due. -/
theorem part_close (h : (s.replicas.map Replica.node).Nodup) :
    s.part lookup .close =
      Plan.closing lookup s.id (s.dueToClose.map Replica.node) s.isFinal := by
  simp only [part, s.closeTargets_ruling h]

/-- A due node is withheld for the reason that is its fate, and for no other. -/
theorem mem_withheld_part_close (h : (s.replicas.map Replica.node).Nodup) {r : Replica}
    (hr : r ∈ s.dueToClose) (reason : WithholdReason) :
    ⟨.close, some r.node, reason⟩ ∈ (s.part lookup .close).withheld ↔
      Plan.closeFate lookup
        (Plan.waitsForOther lookup (s.dueToClose.map Replica.node) s.isFinal) r.node =
          some reason := by
  rw [s.part_close lookup h, Plan.mem_withheld_closing]
  constructor
  · rintro ⟨n, -, reason', hFate, hEq⟩
    cases hEq
    exact hFate
  · intro hFate
    exact ⟨r.node, List.mem_map_of_mem hr, reason, hFate, rfl⟩

theorem directives_part_close_ascending (h : (s.replicas.map Replica.node).Nodup) :
    ∃ nodes : List NodeId, nodes.Pairwise (· < ·) ∧
      (s.part lookup .close).directives = nodes.map (Directive.close s.id) := by
  have hDue : (s.dueToClose.map Replica.node).Pairwise (· < ·) :=
    List.pairwise_map.2 ((s.node_lt_of_nodup h).sublist s.dueToClose_sublist)
  rw [s.part_close lookup h, Plan.directives_closing]
  exact ⟨_, hDue.sublist List.filter_sublist, rfl⟩

/-- A due host waits exactly when closing is final, it leaves, and another due host stays. -/
theorem closeFate_due_eq_decommissioningHost_iff (r : Replica) :
    Plan.closeFate lookup
        (Plan.waitsForOther lookup (s.dueToClose.map Replica.node) s.isFinal) r.node =
          some .decommissioningHost ↔
      (s.container.state = .quasiClosed ∧ s.verdict.stuck = false) ∧
        (∃ status, lookup r.node = some status ∧ status.health ≠ .dead ∧
          status.operational.isDecommission = true) ∧
        ∃ q ∈ s.dueToClose, q.node ≠ r.node ∧ ∃ other, lookup q.node = some other ∧
          other.health ≠ .dead ∧ other.operational.isDecommission = false := by
  have hFinal : s.isFinal = true ↔ s.container.state = .quasiClosed ∧ s.verdict.stuck = false := by
    simp [isFinal]
  simp only [Plan.closeFate_eq_decommissioningHost_iff, Plan.waitsForOther_iff, hFinal]
  constructor
  · rintro ⟨status, hStatus, hLives, hQuasi, hLeaves, n, hn, other, hOther, hOtherLives, hStays⟩
    obtain ⟨q, hq, rfl⟩ := List.mem_map.1 hn
    refine ⟨hQuasi, ⟨status, hStatus, hLives, hLeaves⟩, q, hq, fun hEq => ?_, other, hOther,
      hOtherLives, hStays⟩
    -- One node cannot leave and stay.
    rw [hEq, hStatus, Option.some.injEq] at hOther
    rw [hOther, hStays] at hLeaves
    cases hLeaves
  · rintro ⟨hQuasi, ⟨status, hStatus, hLives, hLeaves⟩, q, hq, -, other, hOther, hOtherLives, hStays⟩
    exact ⟨status, hStatus, hLives, hQuasi, hLeaves, q.node, List.mem_map_of_mem hq, other, hOther,
      hOtherLives, hStays⟩

end Snapshot

/-- Where nodes are distinct, an evaluation asks or withholds exactly the closes that are due, at
every stage of the container and whatever the registry can answer. -/
theorem closes_exactly_due (s : Snapshot) (hNodes : (s.replicas.map Replica.node).Nodup)
    (lookup : NodeLookup) :
    ClosesExactly s lookup ((s.evaluate lookup).ofKind .close)
      ((s.evaluate lookup).withheld.filter (fun w => w.kind = .close)) := by
  rw [s.ofKind_evaluate, s.filter_withheld_evaluate]
  have hFate := fun r hr reason => s.mem_withheld_part_close lookup hNodes (r := r) hr reason
  have hPart := s.part_close lookup hNodes
  refine {
    eachOnce := ⟨hNodes.sublist (s.dueToClose_sublist.map Replica.node), ?_⟩
    ascending := s.directives_part_close_ascending lookup hNodes
    registryUnavailable := fun r hr => ?_
    nodeDead := fun r hr => ?_
    decommissioningHost := fun r hr => ?_
    noOtherReason := fun w hw => ?_
    someAsked := ?_ }
  · have h := Plan.closing_perm lookup s.id (s.dueToClose.map Replica.node) s.isFinal
    rw [hPart]
    rwa [List.map_map] at h
  · rw [hFate r hr, Plan.closeFate_eq_registryUnavailable_iff]
  · rw [hFate r hr, Plan.closeFate_eq_nodeDead_iff]
  · rw [hFate r hr, s.closeFate_due_eq_decommissioningHost_iff]
  · rw [hPart] at hw
    obtain ⟨n, -, reason, hReason, rfl⟩ := (Plan.mem_withheld_closing _ _ _ _ _).1 hw
    rintro rfl
    exact Plan.closeFate_ne_noSource _ _ _ hReason
  · rintro ⟨w, hw, hWaits⟩
    rw [hPart] at hw ⊢
    obtain ⟨n, -, reason, hReason, rfl⟩ := (Plan.mem_withheld_closing _ _ _ _ _).1 hw
    rw [show reason = .decommissioningHost from hWaits] at hReason
    exact Plan.directives_closing_ne_nil _ _ _ _ hReason

/-- Five eligible replicas: one host stays, one leaves, one is dead, one is unknown, and the fifth
replica is closed already. -/
theorem closes_exactly_due_of_five :
    let replica : NodeId → ReplicaState → Replica := fun n state => ⟨n, state, 7, some n, false⟩
    let s := Snapshot.of ⟨⟨1⟩, .quasiClosed, 3, 0⟩
      [replica "stays" .quasiClosed, replica "leaves" .quasiClosed, replica "dead" .quasiClosed,
        replica "unknown" .quasiClosed, replica "done" .closed]
    let lookup : NodeLookup := fun n =>
      if n = "unknown" then none
      else some ⟨if n = "leaves" then .decommissioning else .inService,
        if n = "dead" then .dead else .healthy, none⟩
    (s.replicas.map Replica.node).Nodup ∧
      ClosesExactly s lookup ((s.evaluate lookup).ofKind .close)
        ((s.evaluate lookup).withheld.filter (fun w => w.kind = .close)) := by
  intro replica s lookup
  have hNodes : (s.replicas.map Replica.node).Nodup := by decide
  exact ⟨hNodes, closes_exactly_due s hNodes lookup⟩

end ReplicaUpkeep
