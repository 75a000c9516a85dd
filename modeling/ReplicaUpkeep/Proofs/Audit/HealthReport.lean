import ReplicaUpkeep.Proofs.Audit.Counting
import ReplicaUpkeep.Proofs.Image.Consistency
import ReplicaUpkeep.Proofs.Registry.Counting
import ReplicaUpkeep.Proofs.Store.Survey
import ReplicaUpkeep.Proofs.Verdict.Reason

/-!
# The health report adds up

The numbers of a health report are counted side by side, under conditions that overlap, and the nodes by
one listing for each status.  Here all of them are compared with the snapshots and the nodes that were
looked at.  Every container is counted once by its capacity, every quasi-closed one once by its verdict and
every node once by its status; a report is clean exactly if nothing is wrong with any container.

A stored status may have lapsed, so nodes are counted by the status as it stands at the moment of the
report.
-/

namespace ReplicaUpkeep

/-- The status of a node as it stands at a moment, without the moment at which it lapses. -/
def NodeInfo.standing (info : NodeInfo) (now : Timestamp) : OperationalState × NodeHealth :=
  ((info.status.effective now).operational, (info.status.effective now).health)

namespace Snapshot

/-- The container is quasi-closed and may not be closed for good yet. -/
def IsStuck (s : Snapshot) : Prop :=
  s.container.state = .quasiClosed ∧ s.verdict.stuck = true

/-- The container is not stuck, has as many good replicas as it should, and no unhealthy one. -/
def IsHealthy (s : Snapshot) : Prop :=
  ¬ s.IsStuck ∧ s.count .good = s.factor ∧ ∀ r ∈ s.replicas, r.state ≠ .unhealthy

instance (s : Snapshot) : Decidable s.IsStuck :=
  inferInstanceAs (Decidable (_ ∧ _))

instance (s : Snapshot) : Decidable s.IsHealthy :=
  inferInstanceAs (Decidable (_ ∧ _ ∧ _))

end Snapshot

/-- The numbers of a health report are those of the snapshots and the nodes it is about. -/
structure HealthReport.AddsUp (report : HealthReport) (snapshots : List Snapshot)
    (nodes : List NodeInfo) (now : Timestamp) : Prop where
  errors : report.errors = []
  containers : report.containers = snapshots.length
  shortages : report.underReplicated = snapshots.countP (fun s => s.count .good < s.factor)
  surpluses : report.overReplicated = snapshots.countP (fun s => s.factor < s.count .good)
  /-- Every container has too few good replicas, too many, or as many as it should. -/
  capacity : report.underReplicated + report.overReplicated +
    snapshots.countP (fun s => s.count .good = s.factor) = report.containers
  /-- Every quasi-closed container is finalizable or stuck. -/
  quasiClosed : report.finalizable + report.stuck.length =
    snapshots.countP (fun s => s.container.state = .quasiClosed)
  stuck : ∀ id reason, ⟨id, reason⟩ ∈ report.stuck ↔
    ∃ s ∈ snapshots, s.id = id ∧ s.IsStuck ∧ FirstFails s.factor s.replicas reason
  ascending : report.stuck.Pairwise (fun a b => a.container < b.container)
  healthy : report.healthy = snapshots.countP (fun s => s.IsHealthy)
  clean : report.isClean = true ↔ ∀ s ∈ snapshots, s.IsHealthy
  /-- A status is listed with the number of its nodes, unless there is none. -/
  statuses : ∀ name count, report.nodes.get? name = some count ↔
    0 < count ∧ ∃ status, name = statusName status ∧
      count = nodes.countP (fun info => info.standing now = status)
  /-- Every node is counted once. -/
  nodes : total report.nodes.values = nodes.length

namespace Snapshot

variable (s : Snapshot) (lookup : NodeLookup)

theorem isStuck_evaluate : (s.evaluate lookup).isStuck = decide s.IsStuck := by
  by_cases hState : s.container.state = .quasiClosed <;>
    simp [Evaluation.isStuck, evaluate, IsStuck, hState]

theorem isFinalizable_evaluate :
    (s.evaluate lookup).isFinalizable =
      (decide (s.container.state = .quasiClosed) && !decide s.IsStuck) := by
  by_cases hState : s.container.state = .quasiClosed <;>
    simp [Evaluation.isFinalizable, evaluate, IsStuck, hState]

theorem stuck?_evaluate :
    HealthReport.stuck? (s.evaluate lookup) =
      if s.IsStuck then some ⟨s.id, s.verdict.reason⟩ else none := by
  by_cases hState : s.container.state = .quasiClosed
  · cases hStuck : s.verdict.stuck with
    | true =>
      rw [if_pos ⟨hState, hStuck⟩]
      simp [HealthReport.stuck?, evaluate, hState, hStuck, Option.filter, Evaluation.id, id]
    | false => simp [HealthReport.stuck?, evaluate, IsStuck, hState, hStuck, Option.filter]
  · simp [HealthReport.stuck?, evaluate, IsStuck, hState]

theorem count_unhealthy_eq_zero_iff :
    s.count .unhealthy = 0 ↔ ∀ r ∈ s.replicas, r.state ≠ .unhealthy := by
  rw [count, List.length_eq_zero_iff, List.eq_nil_iff_forall_not_mem]
  simp only [Selector.unhealthy, mem_select_inStates, List.mem_singleton, not_and]

theorem isHealthy_evaluate :
    (!(s.evaluate lookup).isStuck && (s.evaluate lookup).capacity.isHealthy) =
      decide s.IsHealthy := by
  have hCapacity : (s.evaluate lookup).capacity.isHealthy =
      (decide (s.count .good = s.factor) && decide (s.count .unhealthy = 0)) := rfl
  rw [isStuck_evaluate, hCapacity, Bool.eq_iff_iff, decide_eq_true_iff]
  simp [IsHealthy, count_unhealthy_eq_zero_iff]

end Snapshot

namespace HealthReport

/-! ## Nodes by status -/

theorem mem_statuses (status : OperationalState × NodeHealth) : status ∈ statuses := by
  obtain ⟨operational, health⟩ := status
  cases operational <;> cases health <;> decide

theorem statuses_nodup : statuses.Nodup := by
  decide

theorem statusNames_nodup : (statuses.map statusName).Nodup := by
  decide +kernel

/-- A listing of the nodes with one status is as long as there are such nodes. -/
theorem length_listNodes (g : Registry) (now : Timestamp) (status : OperationalState × NodeHealth) :
    (g.listNodes now ⟨some status.1, some status.2⟩).length =
      g.nodes.values.countP (fun info => info.standing now = status) := by
  rw [Registry.length_listNodes_eq_countP]
  refine List.countP_congr fun info _ => ?_
  simp only [NodeFilter.accepts, NodeInfo.standing, Option.all_some, Bool.and_eq_true,
    decide_eq_true_eq, Prod.ext_iff]
  exact and_congr eq_comm eq_comm

/-- A status by its name, with the number of nodes that have it at a moment. -/
def statusCount (nodes : List NodeInfo) (now : Timestamp)
    (status : OperationalState × NodeHealth) : String × Nat :=
  (statusName status, nodes.countP fun info => info.standing now = status)

theorem map_fst_statusCount (nodes : List NodeInfo) (now : Timestamp) :
    (statuses.map (statusCount nodes now)).map Prod.fst = statuses.map statusName := by
  have hName : Prod.fst ∘ statusCount nodes now = statusName := rfl
  rw [List.map_map, hName]

theorem map_snd_statusCount (nodes : List NodeInfo) (now : Timestamp) :
    (statuses.map (statusCount nodes now)).map Prod.snd =
      statuses.map fun status => nodes.countP fun info => info.standing now = status := by
  have hCount : Prod.snd ∘ statusCount nodes now =
      fun status => nodes.countP fun info => info.standing now = status := rfl
  rw [List.map_map, hCount]

/-- No status is listed twice. -/
theorem positive_counts_nodup (nodes : List NodeInfo) (now : Timestamp) :
    (((statuses.map (statusCount nodes now)).filter (fun c => 0 < c.2)).map Prod.fst).Nodup := by
  refine List.Nodup.sublist (List.filter_sublist.map _) ?_
  rw [map_fst_statusCount]
  exact statusNames_nodup

section Nodes

variable {g : Registry} {nodes : List NodeInfo} (h : g.nodes.values.Perm nodes) (now : Timestamp)
include h

/-- The table of counts, with every count taken over the nodes themselves. -/
theorem nodeCounts_eq :
    nodeCounts g now =
      .ofList ((statuses.map (statusCount nodes now)).filter (fun c => 0 < c.2)) := by
  rw [nodeCounts]
  congr 2
  refine List.map_congr_left fun status _ => ?_
  rw [length_listNodes, h.countP_eq, statusCount]

theorem get?_nodeCounts (name : String) (count : Nat) :
    (nodeCounts g now).get? name = some count ↔
      0 < count ∧ ∃ status, name = statusName status ∧
        count = nodes.countP (fun info => info.standing now = status) := by
  rw [nodeCounts_eq h, Table.get?_ofList (positive_counts_nodup nodes now), List.mem_filter,
    List.mem_map, decide_eq_true_eq, and_comm]
  refine and_congr_right fun _ => exists_congr fun status => ?_
  rw [statusCount, Prod.mk.injEq, eq_comm, eq_comm (b := count)]
  exact and_iff_right (mem_statuses status)

/-- The fifteen listings count every node, and none of them twice. -/
theorem total_nodeCounts : total (nodeCounts g now).values = nodes.length := by
  have hPositive : ∀ l : List (String × Nat), (l.filter (fun c => 0 < c.2)).map Prod.snd =
      (l.map Prod.snd).filter (fun n => 0 < n) := fun l => by
    rw [List.filter_map]
    rfl
  calc total (nodeCounts g now).values
      = total (((statuses.map (statusCount nodes now)).filter (fun c => 0 < c.2)).map Prod.snd) := by
        rw [nodeCounts_eq h]
        exact total_perm ((Table.entries_ofList_perm (positive_counts_nodup nodes now)).map _)
    _ = total (statuses.map fun status => nodes.countP fun info => info.standing now = status) := by
        rw [hPositive, total_filter_pos, map_snd_statusCount]
    _ = nodes.length :=
        total_countP_eq_length _ statuses_nodup nodes fun info _ => mem_statuses (info.standing now)

end Nodes

/-! ## The whole report -/

section Report

variable (store : Store) (registry : Registry) (now : Timestamp)

theorem stuck_of :
    (HealthReport.of (store, registry) now).stuck =
      store.snapshots.filterMap fun s =>
        if s.IsStuck then some ⟨s.id, s.verdict.reason⟩ else none := by
  simp only [HealthReport.of, Store.evaluations_findings_eq, List.filterMap_map]
  exact List.filterMap_congr fun s _ => s.stuck?_evaluate _

theorem length_stuck_of :
    (HealthReport.of (store, registry) now).stuck.length =
      store.snapshots.countP (fun s => s.container.state = .quasiClosed && decide s.IsStuck) := by
  rw [stuck_of, List.length_filterMap_eq_countP]
  refine List.countP_congr fun s _ => ?_
  by_cases hStuck : s.IsStuck
  · simp [hStuck, hStuck.1]
  · simp [hStuck]

theorem mem_stuck_of (id : ContainerId) (reason : Verdict.Reason) :
    ⟨id, reason⟩ ∈ (HealthReport.of (store, registry) now).stuck ↔
      ∃ s ∈ store.snapshots, s.id = id ∧ s.IsStuck ∧ FirstFails s.factor s.replicas reason := by
  rw [stuck_of, List.mem_filterMap]
  refine exists_congr fun s => and_congr_right fun _ => ?_
  by_cases hStuck : s.IsStuck
  · rw [if_pos hStuck, Option.some.injEq, StuckContainer.mk.injEq]
    refine and_congr_right fun _ => ?_
    constructor
    · rintro rfl
      exact ⟨hStuck, s.firstFails_reason hStuck.2⟩
    · rintro ⟨-, hFails⟩
      exact s.reason_of_firstFails hFails
  · simp [hStuck]

theorem stuck_ascending (hKeyed : store.Keyed) :
    (HealthReport.of (store, registry) now).stuck.Pairwise (fun a b => a.container < b.container) := by
  rw [stuck_of, List.pairwise_filterMap]
  refine (Store.snapshots_ascending hKeyed).imp fun {a b} hLt x hx y hy => ?_
  split at hx
  · split at hy
    · cases hx
      cases hy
      exact hLt
    · cases hy
  · cases hx

theorem healthy_of :
    (HealthReport.of (store, registry) now).healthy =
      store.snapshots.countP (fun s => s.IsHealthy) := by
  simp only [HealthReport.of, Store.evaluations_findings_eq, List.countP_map]
  exact List.countP_congr fun s _ => by rw [Function.comp_apply, s.isHealthy_evaluate]

theorem finalizable_of :
    (HealthReport.of (store, registry) now).finalizable =
      store.snapshots.countP (fun s => s.container.state = .quasiClosed && !decide s.IsStuck) := by
  simp only [HealthReport.of, Store.evaluations_findings_eq, List.countP_map]
  exact List.countP_congr fun s _ => by rw [Function.comp_apply, s.isFinalizable_evaluate]

theorem containers_of :
    (HealthReport.of (store, registry) now).containers = store.snapshots.length :=
  store.length_findings _

theorem underReplicated_of :
    (HealthReport.of (store, registry) now).underReplicated =
      store.snapshots.countP (fun s => s.count .good < s.factor) := by
  simp only [HealthReport.of, Store.evaluations_findings_eq, List.countP_map]
  rfl

theorem overReplicated_of :
    (HealthReport.of (store, registry) now).overReplicated =
      store.snapshots.countP (fun s => s.factor < s.count .good) := by
  simp only [HealthReport.of, Store.evaluations_findings_eq, List.countP_map]
  rfl

theorem errors_of : (HealthReport.of (store, registry) now).errors = [] :=
  store.errors_findings _

/-- The report on a store whose containers are stored under their own numbers adds up. -/
theorem addsUp_of (hKeyed : store.Keyed) {nodes : List NodeInfo}
    (hNodes : registry.nodes.values.Perm nodes) :
    (HealthReport.of (store, registry) now).AddsUp store.snapshots nodes now where
  errors := errors_of store registry now
  containers := containers_of store registry now
  shortages := underReplicated_of store registry now
  surpluses := overReplicated_of store registry now
  capacity := by
    rw [underReplicated_of, overReplicated_of, containers_of]
    exact countP_lt_add_countP_gt_add_countP_eq (fun s => s.count .good) Snapshot.factor _
  quasiClosed := by
    rw [finalizable_of, length_stuck_of, Nat.add_comm]
    exact countP_and_add_countP_and_not _ _ _
  stuck := mem_stuck_of store registry now
  ascending := stuck_ascending store registry now hKeyed
  healthy := healthy_of store registry now
  clean := by
    rw [isClean, errors_of, healthy_of, containers_of]
    simp [List.countP_eq_length]
  statuses := get?_nodeCounts hNodes now
  nodes := total_nodeCounts hNodes now

end Report

end HealthReport

namespace ClusterImage

section Contents

variable {image : ClusterImage} {store : Store} {registry : Registry}
  (h : image.build = .ok (store, registry))
include h

/-- The nodes of an accepted image are registered, each once. -/
theorem values_nodes_build : registry.nodes.values.Perm image.nodes :=
  Table.values_perm ((build_accepted_iff image).1 ⟨_, h⟩).nodes (get?_nodes_build h)

/-- Every container of an accepted image has one snapshot. -/
theorem containers_snapshots_build :
    (store.snapshots.map Snapshot.container).Perm image.containers := by
  have hContainers : store.snapshots.map Snapshot.container =
      (store.entries.map fun _ e => e.container).values := by
    simp only [Store.snapshots, Table.values, Table.map, List.map_map]
    rfl
  rw [hContainers]
  refine Table.values_perm ((build_accepted_iff image).1 ⟨_, h⟩).containers fun id c => ?_
  rw [Table.get?_map]
  exact container?_build h id c

end Contents

end ClusterImage

/-- For every image that is accepted, and at any moment, the health report adds up: about one snapshot for
each container of the image, taken from the store that it is built into, and about the image's nodes. -/
theorem health_report_adds_up (image : ClusterImage) (store : Store) (registry : Registry)
    (h : image.build = .ok (store, registry)) (now : Timestamp) :
    (store.snapshots.map Snapshot.container).Perm image.containers ∧
    (∀ s ∈ store.snapshots, store.snapshot s.id = .ok s) ∧
    (HealthReport.of (store, registry) now).containers = image.containers.length ∧
    (HealthReport.of (store, registry) now).AddsUp store.snapshots image.nodes now := by
  have hKeyed : store.Keyed := ClusterImage.keyed_build h
  have hContainers := ClusterImage.containers_snapshots_build h
  have hAddsUp := HealthReport.addsUp_of store registry now hKeyed (ClusterImage.values_nodes_build h)
  refine ⟨hContainers, fun _ hMem => Store.snapshot_of_mem_snapshots hKeyed hMem, ?_, hAddsUp⟩
  rw [hAddsUp.containers, ← hContainers.length_eq, List.length_map]

/-- One of two containers misses a report and is stuck, so the report is not clean although the other
container is healthy.  The maintenance of one node has lapsed, and it counts as in service. -/
theorem health_report_adds_up_of_two :
    let eve : Timestamp := ⟨⟨2023, 12, 31, 0, 0, 0, 0⟩, by decide⟩
    let day : Timestamp := ⟨⟨2024, 1, 1, 0, 0, 0, 0⟩, by decide⟩
    let image : ClusterImage :=
      ⟨[⟨"a", "", ⟨.inService, .healthy, none⟩⟩, ⟨"b", "", ⟨.inMaintenance, .healthy, some eve⟩⟩,
          ⟨"c", "", ⟨.decommissioning, .stale, none⟩⟩],
        [⟨⟨2⟩, .quasiClosed, 3, 0⟩, ⟨⟨1⟩, .closed, 2, 0⟩],
        [⟨⟨1⟩, "a", .closed, some 5, some "a", false⟩, ⟨⟨1⟩, "b", .closed, some 5, some "b", false⟩,
          ⟨⟨2⟩, "a", .quasiClosed, some 5, some "a", false⟩]⟩
    ∃ store registry, image.build = .ok (store, registry) ∧
      (HealthReport.of (store, registry) day).AddsUp store.snapshots image.nodes day ∧
      (HealthReport.of (store, registry) day).stuck = [⟨⟨2⟩, .missingReports⟩] ∧
      (HealthReport.of (store, registry) day).healthy = 1 ∧
      (HealthReport.of (store, registry) day).nodes.entries =
        [("decommissioning/stale", 1), ("in_service/healthy", 2)] := by
  intro eve day image
  have hReport : image.build.toOption.map (fun parts =>
      ((HealthReport.of parts day).stuck, (HealthReport.of parts day).healthy,
        (HealthReport.of parts day).nodes.entries)) =
      some ([⟨⟨2⟩, .missingReports⟩], 1, [("decommissioning/stale", 1), ("in_service/healthy", 2)]) := by
    decide +kernel
  obtain ⟨parts, hParts, hShown⟩ := Option.map_eq_some_iff.1 hReport
  have hBuild : image.build = .ok parts := toOption_eq_some_iff.1 hParts
  rw [Prod.mk.injEq, Prod.mk.injEq] at hShown
  obtain ⟨hStuck, hHealthy, hNodes⟩ := hShown
  obtain ⟨-, -, -, hAddsUp⟩ := health_report_adds_up image parts.1 parts.2 hBuild day
  exact ⟨parts.1, parts.2, hBuild, hAddsUp, hStuck, hHealthy, hNodes⟩

end ReplicaUpkeep
