import ReplicaUpkeep.Proofs.Manager.NodeChange
import ReplicaUpkeep.Proofs.Plan.Naming
import ReplicaUpkeep.Proofs.Queue.Operations
import ReplicaUpkeep.Proofs.Registry.Answers

/-!
# The eviction of a node

One call takes a node out of the store, the registry and the queue.  It is complete: every container with a
record on the node is evaluated anew, and the queue heeds what that finds.  It is confined: the records on
other nodes, the other nodes and the queue entries of all other containers are as they were.

Afterwards nothing brings the node back but its own reports.  Evaluations read nodes off snapshots alone, so
even if the node is registered again, none of them names it before it has reported.

The manager may be in any state in which its queue is open; its registry need not even be consistent.
-/

namespace ReplicaUpkeep

/-! ## The store without a node -/

namespace Store

/-- The containers with a record on a node. -/
def recordedOn (s : Store) (node : NodeId) : ContainerSet :=
  (s.entries.filter fun _ e => e.replicas.contains node).map fun _ _ => ()

section Evict

variable (s : Store) (node : NodeId)

theorem fst_evict : (s.evict node).1 = (s.recordedOn node).keys :=
  (Table.keys_map _ _).symm

theorem mem_keys_recordedOn (id : ContainerId) :
    id ∈ (s.recordedOn node).keys ↔ (s.record? id node).isSome = true := by
  rw [Table.mem_keys_iff, recordedOn, record?, Table.get?_map, Table.get?_filter]
  cases s.entries.get? id with
  | none => simp
  | some e =>
    rw [Option.bind_some]
    by_cases hRecord : (e.replicas.get? node).isSome = true <;>
      simp [Option.filter, Table.contains, hRecord]

theorem record?_evict (id : ContainerId) (node' : NodeId) :
    (s.evict node).2.record? id node' = if node' = node then none else s.record? id node' := by
  have hApply : s.apply (.evict node) = .ok (s.evict node).2 := rfl
  rw [record?_apply hApply]
  by_cases hNode : node' = node <;> simp [hNode, Operation.drops, Operation.reportsOn]

theorem container_evict (id : ContainerId) : (s.evict node).2.container id = s.container id := by
  rw [container, container, entry, entry, evict, Table.get?_map]
  cases s.entries.get? id <;> rfl

theorem ids_evict : (s.evict node).2.ids = s.ids :=
  Table.keys_map _ _

end Evict

/-- A node without a record is not in the snapshot. -/
theorem node_ne_of_record?_eq_none {s : Store} {id : ContainerId} {node : NodeId}
    (hNone : s.record? id node = none) {snapshot : Snapshot} (hSnapshot : s.snapshot id = .ok snapshot)
    {r : Replica} (hr : r ∈ snapshot.replicas) : r.node ≠ node := by
  obtain ⟨e, hEntry, rfl⟩ := (s.snapshot_eq_ok_iff id snapshot).1 hSnapshot
  obtain ⟨record, hRecord, -⟩ := (mem_snapshotOf_iff e r).1 hr
  rintro rfl
  rw [record?_of_get? hEntry, hRecord] at hNone
  cases hNone

/-- Only a report brings a record. -/
theorem record?_step_eq_none {s : Store} {op : Operation} {id : ContainerId} {node : NodeId}
    (hSilent : op.reportsOn id node = []) (hNone : s.record? id node = none) :
    (s.step op).record? id node = none := by
  rw [step]
  cases hApply : s.apply op with
  | error fault => exact hNone
  | ok s' =>
    show s'.record? id node = none
    rw [record?_apply hApply, hSilent, Record.afterReports_nil, hNone, ite_self]

end Store

/-! ## The queue after several evaluations -/

namespace RepairQueue

/-- The container waits as its snapshot says, and nothing of it is in flight if it is on its way out. -/
structure Heeds (q : RepairQueue) (s : Snapshot) : Prop where
  shortage : q.contains s.id .shortage = true ↔
    (s.container.state = .quasiClosed ∨ s.container.state = .closed) ∧ s.count .good < s.factor
  surplus : q.contains s.id .surplus = true ↔
    (s.container.state = .quasiClosed ∨ s.container.state = .closed) ∧ s.factor < s.count .good
  forgotten : s.container.state = .deleting ∨ s.container.state = .deleted →
    ∀ kind, q.inflight.flights.get? ⟨s.id, kind⟩ = none

/-- Two queues in which everything of some containers is the same: who waits, in which order and with which
priority, and what is in flight. -/
structure AgreesOn (p : ContainerId → Prop) [DecidablePred p] (q q' : RepairQueue) : Prop where
  waiting : ∀ id, p id → ∀ i, q'.contains id i = q.contains id i
  order : q'.line.toList.filter (fun w => p w.container) =
    q.line.toList.filter (fun w => p w.container)
  flights : ∀ key : RepairKey, p key.major →
    q'.inflight.flights.get? key = q.inflight.flights.get? key

namespace AgreesOn

variable {p : ContainerId → Prop} [DecidablePred p] {q q' q'' : RepairQueue}

theorem refl : AgreesOn p q q :=
  ⟨fun _ _ _ => rfl, rfl, fun _ _ => rfl⟩

theorem trans (h : AgreesOn p q q') (h' : AgreesOn p q' q'') : AgreesOn p q q'' where
  waiting id hId i := (h'.waiting id hId i).trans (h.waiting id hId i)
  order := h'.order.trans h.order
  flights key hKey := (h'.flights key hKey).trans (h.flights key hKey)

theorem heeds {s : Snapshot} (h : AgreesOn p q q') (hOwn : p s.id) (hHeeds : q.Heeds s) :
    q'.Heeds s where
  shortage := by
    rw [h.waiting s.id hOwn]
    exact hHeeds.shortage
  surplus := by
    rw [h.waiting s.id hOwn]
    exact hHeeds.surplus
  forgotten hState kind := (h.flights ⟨s.id, kind⟩ hOwn).trans (hHeeds.forgotten hState kind)

end AgreesOn

/-- An evaluation concerns nobody but its own container. -/
theorem agreesOn_settled {p : ContainerId → Prop} [DecidablePred p] {q : RepairQueue}
    (h : q.line.Sound) {e : Evaluation} (hOther : ¬ p e.id) : AgreesOn p q (q.settled e) where
  waiting id hId i := by
    have hContains := q.line.contains_follow e id i
    rwa [if_neg fun hSame : id = e.id => hOther (hSame ▸ hId)] at hContains
  order := by
    have hFilter : ∀ l : List Waiter, l.filter (fun w => p w.container) =
        (l.filter fun w => w.container ≠ e.id).filter (fun w => p w.container) := by
      intro l
      rw [List.filter_filter]
      refine List.filter_congr fun w _ => ?_
      by_cases hOwn : w.container = e.id <;> simp [hOwn, hOther]
    rw [hFilter, hFilter q.line.toList]
    exact congrArg _ (WaitingLine.toList_follow_of_ne h e)
  flights key hKey := q.inflight.get?_follow_of_ne fun hSame => hOther (hSame ▸ hKey)

theorem agreesOn_foldl_settled {p : ContainerId → Prop} [DecidablePred p] {q : RepairQueue}
    (h : q.line.Sound) {es : List Evaluation} (hOthers : ∀ e ∈ es, ¬ p e.id) :
    AgreesOn p q (es.foldl settled q) := by
  induction es generalizing q with
  | nil => exact .refl
  | cons e rest ih =>
    have hFirst : AgreesOn p q (q.settled e) := agreesOn_settled h (hOthers e List.mem_cons_self)
    exact hFirst.trans (ih (WaitingLine.sound_follow h e) fun d hd =>
      hOthers d (List.mem_cons_of_mem e hd))

/-- Where each container is evaluated once, the queue heeds what each evaluation found. -/
theorem heeds_foldl_settled {q : RepairQueue} (h : q.line.Sound) {es : List Evaluation}
    (hIds : (es.map Evaluation.id).Nodup) {s : Snapshot} {lookup : NodeLookup}
    (hMem : s.evaluate lookup ∈ es) : (es.foldl settled q).Heeds s := by
  obtain ⟨past, rest, rfl⟩ := List.append_of_mem hMem
  have hPast : (past.foldl settled q).line.Sound := by
    rw [foldl_settled]
    exact WaitingLine.sound_foldl_follow h past
  obtain ⟨hShort, hMore, hForgotten, -, -, -⟩ := follows_settled hPast s lookup
  -- Those evaluated later are others, so what the queue heeds stays.
  have hLater : AgreesOn (· = s.id) ((past.foldl settled q).settled (s.evaluate lookup))
      (rest.foldl settled ((past.foldl settled q).settled (s.evaluate lookup))) := by
    refine agreesOn_foldl_settled (WaitingLine.sound_follow hPast _) fun e he hSame => ?_
    rw [List.map_append, List.map_cons, List.nodup_append] at hIds
    exact (List.nodup_cons.1 hIds.2.1).1 (List.mem_map.2 ⟨e, he, hSame⟩)
  rw [List.foldl_append, List.foldl_cons]
  exact hLater.heeds rfl ⟨hShort, hMore, hForgotten⟩

end RepairQueue

namespace Manager

/-! ## What evaluations leave alone -/

/-- An evaluation reaches the queue and the metrics only. -/
theorem exists_evaluate_eq (m : Manager) (now : Moment) (id : ContainerId) :
    ∃ queue metrics, (m.evaluate now id).2 = { m with queue, metrics } := by
  rcases m.evaluate_cases now id with ⟨e, queue, -, -, hDone⟩ | ⟨fault, success, hDone⟩
  · exact ⟨queue, _, congrArg Prod.snd hDone⟩
  · exact ⟨m.queue, _, congrArg Prod.snd hDone⟩

theorem store_visit (m : Manager) (now : Moment) {action : Evaluation → Manager → Manager}
    (hAction : ∀ e m, (action e m).store = m.store) (ids : List ContainerId) :
    (visit now action ids m).2.store = m.store := by
  refine visit_keeps (P := fun after => after.store = m.store) (fun after id hSame => ?_)
    (fun e after hSame => (hAction e after).trans hSame) ids rfl
  obtain ⟨queue, metrics, hDone⟩ := after.exists_evaluate_eq now id
  rw [hDone]
  exact hSame

/-- A visit in which nothing is done but evaluating sends nothing. -/
theorem outbox_visit (m : Manager) (now : Moment) (ids : List ContainerId) :
    (visit now (fun _ m => m) ids m).2.outbox = m.outbox := by
  refine visit_keeps (P := fun after => after.outbox = m.outbox) (fun after id hSame => ?_)
    (fun _ _ hSame => hSame) ids rfl
  obtain ⟨queue, metrics, hDone⟩ := after.exists_evaluate_eq now id
  rw [hDone]
  exact hSame

/-! ## What an eviction does -/

/-- What the eviction of a node at a moment makes of a manager, and the evaluations it is answered with. -/
structure Evicts (m : Manager) (now : Moment) (node : NodeId) (evaluations : List Evaluation)
    (m' : Manager) : Prop where
  ascending : (evaluations.map Evaluation.id).Pairwise (· < ·)
  affected : ∀ id, id ∈ evaluations.map Evaluation.id ↔ (m.store.record? id node).isSome = true
  current : ∀ e ∈ evaluations, m'.store.evaluate (m'.lookup now) e.id = .ok e
  unrecorded : ∀ id, m'.store.record? id node = none
  gone : ∀ id snapshot, m'.store.snapshot id = .ok snapshot → ∀ r ∈ snapshot.replicas, r.node ≠ node
  unknown : m'.registry.Misses node
  heeded : ∀ id snapshot, (m.store.record? id node).isSome = true →
    m'.store.snapshot id = .ok snapshot → m'.queue.Heeds snapshot
  records : ∀ id, ∀ other ≠ node, m'.store.record? id other = m.store.record? id other
  containers : ∀ id, m'.store.container id = m.store.container id
  nodes : ∀ other ≠ node, m'.registry.info other = m.registry.info other ∧
    m'.registry.containers other = m.registry.containers other
  bystanders : RepairQueue.AgreesOn (fun id => m.store.record? id node = none) m.queue m'.queue
  stillOpen : m'.queue.closed = false
  outbox : m'.outbox = m.outbox

section Evict

variable {m : Manager} (h : m.Sound) (hOpen : m.queue.closed = false) (now : Moment) (node : NodeId)
include h hOpen

theorem evicts_of_open :
    ∃ evaluations m', m.evict now node = (.ok evaluations, m') ∧ m.Evicts now node evaluations m' := by
  let start : Manager :=
    { m with store := (m.store.evict node).2, registry := m.registry.removeNode node }
  have hStart : start.Sound := ⟨h.keyed.evict node, h.queue⟩
  obtain ⟨hAnswer, hResumes, hQueue⟩ :=
    visit_of_open harmless_nothing now (m.store.recordedOn node).keys hStart hOpen
  have hSurveys := surveys_filterMap hStart now (m.store.recordedOn node)
  generalize (m.store.recordedOn node).keys.filterMap
    (fun id => (start.store.evaluate (start.lookup now) id).toOption) = evaluations
    at hAnswer hQueue hSurveys
  have hOutbox := start.outbox_visit now (m.store.recordedOn node).keys
  have hEvict : m.evict now node = visit now (fun _ m => m) (m.store.recordedOn node).keys start := by
    rw [evict, ← Store.fst_evict]
  generalize visit now (fun _ m => m) (m.store.recordedOn node).keys start = done
    at hAnswer hResumes hQueue hOutbox hEvict
  obtain ⟨answer, m'⟩ := done
  simp only at hAnswer hResumes hQueue hOutbox
  subst hAnswer
  have hStore : m'.store = (m.store.evict node).2 := hResumes.store
  have hRegistry : m'.registry = m.registry.removeNode node := hResumes.registry
  have hAffected : ∀ id, id ∈ evaluations.map Evaluation.id ↔
      (m.store.record? id node).isSome = true := by
    intro id
    rw [hSurveys.mem_iff, Store.mem_keys_recordedOn]
    refine and_iff_left_of_imp fun hRecord => ?_
    show id ∈ (m.store.evict node).2.ids
    obtain ⟨record, hRecord⟩ := Option.isSome_iff_exists.1 hRecord
    rw [Store.ids_evict, ← Store.exists_snapshot_iff]
    exact Store.exists_snapshot hRecord
  have hCurrent : ∀ e ∈ evaluations, m'.store.evaluate (m'.lookup now) e.id = .ok e := by
    intro e he
    rw [hResumes.lookup_eq, hResumes.store]
    exact hSurveys.current e he
  have hNone : ∀ id, m'.store.record? id node = none := by
    intro id
    rw [hStore, Store.record?_evict, if_pos rfl]
  refine ⟨evaluations, m', hEvict, {
    ascending := hSurveys.ascending
    affected := hAffected
    current := hCurrent
    unrecorded := hNone
    gone := fun id snapshot hSnapshot r hr => Store.node_ne_of_record?_eq_none (hNone id) hSnapshot hr
    unknown := ?_
    heeded := fun id snapshot hRecord hSnapshot => ?_
    records := fun id other hOther => ?_
    containers := fun id => ?_
    nodes := fun other hOther => ?_
    bystanders := ?_
    stillOpen := hResumes.isOpen
    outbox := hOutbox }⟩
  · rw [hRegistry]
    exact Registry.misses_of_get?_eq_none (by rw [Registry.removeNode, Table.get?_erase, if_pos rfl])
      (by rw [Registry.removeNode, Table.get?_erase, if_pos rfl])
  · obtain ⟨e, he, hId⟩ := List.mem_map.1 ((hAffected id).2 hRecord)
    have hOwn := hCurrent e he
    rw [hId, Store.evaluate, hSnapshot] at hOwn
    rw [hQueue]
    refine RepairQueue.heeds_foldl_settled h.queue.line ?_ (Except.ok.inj hOwn ▸ he)
    exact hSurveys.ascending.imp fun hLt hSame => by
      rw [hSame] at hLt
      exact Std.lt_irrefl hLt
  · rw [hStore, Store.record?_evict, if_neg hOther]
  · rw [hStore, Store.container_evict]
  · rw [hRegistry, Registry.info, Registry.info, Registry.containers, Registry.containers,
      Registry.removeNode, Table.get?_erase, if_neg hOther, Table.get?_erase, if_neg hOther]
    exact ⟨rfl, rfl⟩
  · rw [hQueue]
    refine RepairQueue.agreesOn_foldl_settled h.queue.line fun e he hNone => ?_
    have hSome := (hAffected e.id).1 (List.mem_map_of_mem he)
    rw [hNone] at hSome
    cases hSome

end Evict

/-! ## Until the node reports again -/

/-- The operation on the store that an event comes to, if it comes to one. -/
def Event.operation? : Event → Option Store.Operation
  | .evict _ node => some (.evict node)
  | .ingest r => some (.report r)
  | .update op => some op
  | _ => none

/-- The event is a report of the node, whichever way it reaches the store. -/
def Event.ReportsFrom (event : Event) (node : NodeId) : Prop :=
  ∃ r, event.operation? = some (.report r) ∧ r.node = node

/-- The store changes by operations alone. -/
theorem store_after (m : Manager) (event : Event) :
    (m.after event).store = event.operation?.elim m.store m.store.step := by
  cases event with
  | evaluate now id =>
    show (m.evaluate now id).2.store = m.store
    obtain ⟨queue, metrics, hDone⟩ := m.exists_evaluate_eq now id
    rw [hDone]
  | nodeChange now node =>
    show (m.nodeChange now node).2.store = m.store
    rw [nodeChange]
    split
    · rfl
    · exact store_visit m now harmless_dispatch_closes.store _
  | evict now node => exact store_visit _ now harmless_nothing.store _
  | ingest r =>
    show ((m.ingest r).toOption.getD m).store = m.store.step (.report r)
    rw [ingest, Store.step, Store.apply]
    cases m.store.report r <;> rfl
  | _ => rfl

/-- A node without records has none before it reports. -/
theorem record?_afterAll_eq_none {m : Manager} {node : NodeId}
    (hNone : ∀ id, m.store.record? id node = none) {events : List Event}
    (hSilent : ∀ event ∈ events, ¬ event.ReportsFrom node) (id : ContainerId) :
    (m.afterAll events).store.record? id node = none := by
  induction events generalizing m with
  | nil => exact hNone id
  | cons event rest ih =>
    refine ih (fun id => ?_) fun later hLater => hSilent later (List.mem_cons_of_mem _ hLater)
    have hQuiet := hSilent event List.mem_cons_self
    rw [store_after]
    cases hOperation : event.operation? with
    | none => exact hNone id
    | some op =>
      refine Store.record?_step_eq_none ?_ (hNone id)
      cases op with
      | report r =>
        exact if_neg fun hOwn => hQuiet ⟨r, hOperation, hOwn.2.symm⟩
      | _ => rfl

/-- What a round evaluates are evaluations of the store as it stands. -/
theorem evaluate_of_mem_evaluations {m : Manager} {now : Moment} {e : Evaluation}
    (h : e ∈ (m.evaluations now).values) : ∃ id, m.store.evaluate (m.lookup now) id = .ok e := by
  obtain ⟨id, hEntry⟩ := (Table.mem_values_iff _ e).1 h
  rw [get?_evaluations, Option.map_eq_some_iff] at hEntry
  obtain ⟨entry, hEntry, rfl⟩ := hEntry
  exact ⟨id, (m.store.evaluate_eq_ok_iff _ id _).2
    ⟨_, (m.store.snapshot_eq_ok_iff id _).2 ⟨entry, hEntry, rfl⟩, rfl⟩⟩

/-- A node without records is named by no evaluation. -/
theorem not_names_of_record?_eq_none {s : Store} {node : NodeId}
    (hNone : ∀ id, s.record? id node = none) {lookup : NodeLookup} {id : ContainerId} {e : Evaluation}
    (hEvaluate : s.evaluate lookup id = .ok e) : ¬ e.Names node := by
  obtain ⟨snapshot, hSnapshot, rfl⟩ := (s.evaluate_eq_ok_iff lookup id e).1 hEvaluate
  intro hNames
  obtain ⟨r, hr, hNode⟩ := Snapshot.exists_of_names_evaluate hNames
  exact Store.node_ne_of_record?_eq_none (hNone id) hSnapshot hr hNode

end Manager

/-- The eviction of a node is complete and confined, in whatever state a manager is, as long as its queue is
open.  It is answered with one evaluation, in ascending order, of each container that had a record on the
node.  Then no snapshot shows the node, the registry does not know it, the queue heeds what was found of
these containers, and all other records, nodes and entries of the queue are as before.  And whatever happens
from then on, before the node reports again no evaluation names it, in a round or by itself, with whatever
registry. -/
theorem eviction_complete_and_confined (config : Config) (stored : List Store.Operation)
    (registry : Registry) (queued : List RepairQueue.Operation) (metrics : Metrics) (outbox : Outbox)
    (now : Moment) (node : NodeId) (hOpen : (RepairQueue.empty.performAll queued).closed = false) :
    let m : Manager := {
      config, registry, metrics, outbox
      store := Store.empty.run stored
      queue := RepairQueue.empty.performAll queued }
    ∃ evaluations m', m.evict now node = (.ok evaluations, m') ∧
      m.Evicts now node evaluations m' ∧
      ∀ events : List Manager.Event, (∀ event ∈ events, ¬ event.ReportsFrom node) →
        (∀ lookup id e, (m'.afterAll events).store.evaluate lookup id = .ok e → ¬ e.Names node) ∧
          ∀ later, ∀ e ∈ ((m'.afterAll events).evaluations later).values, ¬ e.Names node := by
  intro m
  have hSound : m.Sound := ⟨Store.keyed_empty.run stored, RepairQueue.sound_of_open
    (RepairQueue.sound_performAll WaitingLine.sound_empty queued) hOpen⟩
  obtain ⟨evaluations, m', hDone, hEvicts⟩ := Manager.evicts_of_open hSound hOpen now node
  refine ⟨evaluations, m', hDone, hEvicts, fun events hSilent => ?_⟩
  have hGone := Manager.record?_afterAll_eq_none hEvicts.unrecorded hSilent
  refine ⟨fun lookup id e hEvaluate => Manager.not_names_of_record?_eq_none hGone hEvaluate,
    fun later e he => ?_⟩
  obtain ⟨id, hEvaluate⟩ := Manager.evaluate_of_mem_evaluations he
  exact Manager.not_names_of_record?_eq_none hGone hEvaluate

/-- One of two containers has a replica on the node that leaves.  It then waits for a copy, as the other does
already; and after the node was registered again and a round has passed, its evaluation still does not name
the node. -/
theorem eviction_complete_and_confined_of_two :
    let now : Moment := ⟨⟨⟨2024, 1, 1, 0, 0, 0, 0⟩, by decide⟩, 1⟩
    let status : NodeStatus := ⟨.inService, .healthy, none⟩
    let report : ContainerId → NodeId → Report := fun id node =>
      ⟨id, node, .closed, some 7, some "a", false⟩
    let stored : List Store.Operation :=
      [.add ⟨⟨1⟩, .closed, 2, 7⟩, .add ⟨⟨2⟩, .closed, 2, 7⟩, .report (report ⟨1⟩ "a"),
        .report (report ⟨1⟩ "b"), .report (report ⟨2⟩ "a")]
    let registry := Registry.empty.run [.addNode ⟨"a", "", status⟩, .addNode ⟨"b", "", status⟩]
    let queued : List RepairQueue.Operation := [.call (.enqueue ⟨2⟩ .shortage 1)]
    let m : Manager := {
      config := .default, registry, metrics := .empty, outbox := .ofCapacity 9
      store := Store.empty.run stored
      queue := RepairQueue.empty.performAll queued }
    let events : List Manager.Event := [.register registry, .round now]
    (RepairQueue.empty.performAll queued).closed = false ∧
      (∀ event ∈ events, ¬ event.ReportsFrom "b") ∧
      ∃ evaluations m', m.evict now "b" = (.ok evaluations, m') ∧
        (∀ id, id ∈ evaluations.map Evaluation.id ↔ id = ⟨1⟩) ∧
        m'.registry.Misses "b" ∧ m'.queue.contains ⟨1⟩ .shortage = true ∧
        m'.queue.contains ⟨2⟩ .shortage = true ∧
        ∃ e, (m'.afterAll events).store.evaluate ((m'.afterAll events).lookup now) ⟨1⟩ = .ok e ∧
          ¬ e.Names "b" := by
  intro now status report stored registry queued
  have hOpen : (RepairQueue.empty.performAll queued).closed = false := rfl
  have hAll := eviction_complete_and_confined .default stored registry queued .empty (.ofCapacity 9)
    now "b" hOpen
  have hSilent : ∀ event ∈ [Manager.Event.register registry, .round now], ¬ event.ReportsFrom "b" := by
    rintro event hEvent ⟨r, hReport, -⟩
    simp only [List.mem_cons, List.not_mem_nil, or_false] at hEvent
    rcases hEvent with rfl | rfl <;> cases hReport
  -- The manager is computed for the facts that are read off it, and is a variable otherwise.
  obtain ⟨m, hm⟩ : ∃ m : Manager, {
      config := .default, registry, metrics := .empty, outbox := .ofCapacity 9
      store := Store.empty.run stored
      queue := RepairQueue.empty.performAll queued } = m := ⟨_, rfl⟩
  have hRecorded : (m.store.recordedOn "b").keys = [⟨1⟩] := by
    rw [← hm]
    decide +kernel
  have hOther : m.queue.contains ⟨2⟩ .shortage = true := by
    rw [← hm]
    decide +kernel
  have hRead : ((m.evict now "b").2.store.snapshot ⟨1⟩).toOption.map (fun s =>
      (s.id, s.container.state, s.factor, s.count .good)) = some (⟨1⟩, .closed, 2, 1) := by
    rw [← hm]
    decide +kernel
  have hKnown : (((m.evict now "b").2.afterAll [.register registry, .round now]).store.ids) =
      [⟨1⟩, ⟨2⟩] := by
    rw [← hm]
    decide +kernel
  rw [hm] at hAll ⊢
  obtain ⟨evaluations, m', hDone, hEvicts, hNames⟩ := hAll
  rw [hDone] at hRead hKnown
  have hAffected : ∀ id, (m.store.record? id "b").isSome = true ↔ id = ⟨1⟩ := by
    intro id
    rw [← Store.mem_keys_recordedOn, hRecorded, List.mem_singleton]
  obtain ⟨s, hSnapshot, hFields⟩ := Option.map_eq_some_iff.1 hRead
  rw [toOption_eq_some_iff] at hSnapshot
  simp only [Prod.mk.injEq] at hFields
  obtain ⟨hId, hState, hFactor, hGood⟩ := hFields
  obtain ⟨e, hEvaluate⟩ := ((m'.afterAll [.register registry, .round now]).exists_evaluate_iff now
    ⟨1⟩).2 (by rw [hKnown]; exact List.mem_cons_self)
  refine ⟨hOpen, hSilent, evaluations, m', hDone, fun id => (hEvicts.affected id).trans (hAffected id),
    hEvicts.unknown, ?_, ?_, e, hEvaluate, (hNames _ hSilent).1 _ _ e hEvaluate⟩
  · have hHeeds := hEvicts.heeded ⟨1⟩ s ((hAffected ⟨1⟩).2 rfl) hSnapshot
    rw [← hId]
    exact hHeeds.shortage.2 ⟨.inr hState, by omega⟩
  · have hUnaffected : m.store.record? ⟨2⟩ "b" = none := by
      rw [← Option.not_isSome_iff_eq_none, hAffected]
      decide
    exact (hEvicts.bystanders.waiting ⟨2⟩ hUnaffected .shortage).trans hOther

end ReplicaUpkeep
