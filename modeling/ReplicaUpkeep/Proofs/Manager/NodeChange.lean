import ReplicaUpkeep.Proofs.Manager.Membership
import ReplicaUpkeep.Proofs.Registry.Covering
import ReplicaUpkeep.Proofs.Store.Survey

/-!
# What the change of a node looks at

When a node changes, a manager evaluates the containers that the registry believes the node to host, and
no others.  That is enough as long as the registry covers the store, which it does from the building of an
image on: whatever is reported, evicted, advanced, removed or changed in status afterwards, in any order and
accepted or refused, a node's set holds every container with a live replica on it.

Sets may hold containers that no longer exist.  The visit passes over these.
-/

namespace ReplicaUpkeep

namespace Manager

/-- What can happen to a manager's cluster once its nodes and containers are listed. -/
inductive Incident where
  | ingest (r : Report)
  | evict (now : Moment) (node : NodeId)
  | setState (id : ContainerId) (state : ContainerState)
  | setSequence (id : ContainerId) (sequence : UInt64)
  | remove (id : ContainerId)
  | removeReplica (id : ContainerId) (node : NodeId)
  | setHealth (node : NodeId) (health : NodeHealth)
  | setOperational (node : NodeId) (operational : OperationalState) (expiry : Option Timestamp)

/-- The event that an incident is to a manager.  The status of a node changes in the registry alone. -/
def eventOf (m : Manager) : Incident → Event
  | .ingest r => .ingest r
  | .evict now node => .evict now node
  | .setState id state => .update (.setState id state)
  | .setSequence id sequence => .update (.setSequence id sequence)
  | .remove id => .update (.remove id)
  | .removeReplica id node => .update (.removeReplica id node)
  | .setHealth node health =>
    .register (m.registry.track fun g => (g.setHealth node health).map Prod.snd)
  | .setOperational node operational expiry =>
    .register (m.registry.track fun g => (g.setOperational node operational expiry).map Prod.snd)

/-- The manager after an incident; a refused one leaves it alone. -/
def meet (m : Manager) (incident : Incident) : Manager :=
  m.after (m.eventOf incident)

/-- The manager after incidents in turn. -/
def meetAll (m : Manager) (incidents : List Incident) : Manager :=
  incidents.foldl meet m

/-! ## Visiting containers with an open queue -/

/-- What is done after an evaluation touches nothing that evaluations read. -/
structure Harmless (action : Evaluation → Manager → Manager) : Prop where
  store : ∀ e m, (action e m).store = m.store
  registry : ∀ e m, (action e m).registry = m.registry
  queue : ∀ e m, (action e m).queue = m.queue

theorem Harmless.sound {action : Evaluation → Manager → Manager} (hAction : Harmless action)
    (e : Evaluation) {m : Manager} (h : m.Sound) : (action e m).Sound where
  keyed := (hAction.store e m).symm ▸ h.keyed
  queue := (hAction.queue e m).symm ▸ h.queue

/-- A manager as evaluations may leave it: the same cluster, and a queue that is still open. -/
structure Resumes (m m' : Manager) : Prop where
  store : m'.store = m.store
  registry : m'.registry = m.registry
  isOpen : m'.queue.closed = false

theorem Resumes.trans {m m' m'' : Manager} (h : m.Resumes m') (h' : m'.Resumes m'') :
    m.Resumes m'' where
  store := h'.store.trans h.store
  registry := h'.registry.trans h.registry
  isOpen := h'.isOpen

theorem Resumes.lookup_eq {m m' : Manager} (h : m.Resumes m') (now : Moment) :
    m'.lookup now = m.lookup now := by
  rw [lookup, lookup, h.registry]

section Visit

variable {action : Evaluation → Manager → Manager} (hAction : Harmless action) (now : Moment)
include hAction

/-- With an open queue a visit evaluates every container that exists, and passes over the others.  The
queue takes in the evaluations in turn. -/
theorem visit_of_open (ids : List ContainerId) {m : Manager} (h : m.Sound)
    (hOpen : m.queue.closed = false) :
    (visit now action ids m).1 =
        .ok (ids.filterMap fun id => (m.store.evaluate (m.lookup now) id).toOption) ∧
      m.Resumes (visit now action ids m).2 ∧
      (visit now action ids m).2.queue =
        (ids.filterMap fun id => (m.store.evaluate (m.lookup now) id).toOption).foldl
          RepairQueue.settled m.queue := by
  induction ids generalizing m with
  | nil => exact ⟨rfl, ⟨rfl, rfl, hOpen⟩, rfl⟩
  | cons id rest ih =>
    cases hKnown : m.store.snapshot id with
    | error fault =>
      have hFault : fault = .containerNotFound id := Store.eq_containerNotFound_of_snapshot hKnown
      have hUnknown : m.store.evaluate (m.lookup now) id = .error fault := by
        rw [Store.evaluate, hKnown]
        rfl
      have hNext : m.Resumes (m.countEvaluation false) := ⟨rfl, rfl, hOpen⟩
      obtain ⟨hRest, hAfter, hQueue⟩ := ih (m := m.countEvaluation false) ⟨h.keyed, h.queue⟩ hOpen
      rw [hNext.lookup_eq, hNext.store] at hRest hQueue
      rw [visit, evaluate_of_unknown now hKnown, hFault]
      refine ⟨?_, hNext.trans hAfter, ?_⟩
      · rw [List.filterMap_cons, hUnknown]
        exact hRest
      · rw [List.filterMap_cons, hUnknown]
        exact hQueue
    | ok s =>
      obtain ⟨-, hDone⟩ := evaluate_of_known h hOpen now hKnown
      have hEvaluated := (m.store.evaluate_eq_ok_iff (m.lookup now) id _).2 ⟨s, hKnown, rfl⟩
      have hSound := sound_evaluate h now id
      rw [hDone] at hSound
      -- The queue of a settled container is as open as before, and so it stays after the action.
      have hNext : m.Resumes (action (s.evaluate (m.lookup now))
          { m.countEvaluation true with queue := m.queue.settled (s.evaluate (m.lookup now)) }) :=
        ⟨hAction.store _ _, hAction.registry _ _, (congrArg _ (hAction.queue _ _)).trans hOpen⟩
      obtain ⟨hRest, hAfter, hQueue⟩ := ih (hAction.sound _ hSound) hNext.isOpen
      rw [hNext.lookup_eq, hNext.store] at hRest hQueue
      rw [hAction.queue] at hQueue
      rw [visit, hDone]
      refine ⟨?_, hNext.trans hAfter, ?_⟩
      · rw [List.filterMap_cons, hEvaluated]
        simp only [hRest]
        rfl
      · rw [List.filterMap_cons, hEvaluated]
        exact hQueue

end Visit

theorem harmless_nothing : Harmless fun _ m => m :=
  ⟨fun _ _ => rfl, fun _ _ => rfl, fun _ _ => rfl⟩

theorem harmless_dispatch_closes : Harmless fun e m => m.dispatch (e.ofKind .close) :=
  ⟨fun _ _ => rfl, fun _ _ => rfl, fun _ _ => rfl⟩

/-! ## Every incident keeps the registry covering the store -/

/-- A sound manager with an open queue whose registry covers its store. -/
structure Attentive (m : Manager) : Prop where
  sound : m.Sound
  isOpen : m.queue.closed = false
  covers : m.registry.Covers m.store

section Attentive

variable {m : Manager} (h : m.Attentive)
include h

theorem attentive_ingest (r : Report) : ((m.ingest r).toOption.getD m).Attentive := by
  cases hReport : m.store.report r with
  | error fault =>
    have hRefused : m.ingest r = .error fault := by
      rw [ingest, hReport]
      rfl
    rw [hRefused]
    exact h
  | ok store =>
    have hAccepted : m.ingest r =
        .ok { m with store, registry := m.registry.follow r } := by
      rw [ingest, hReport]
      rfl
    rw [hAccepted]
    exact ⟨⟨h.sound.keyed.report hReport, h.sound.queue⟩, h.isOpen, h.covers.report hReport⟩

theorem attentive_evict (now : Moment) (node : NodeId) : (m.evict now node).2.Attentive := by
  have hEvicted : Sound { m with
      store := (m.store.evict node).2, registry := m.registry.removeNode node } :=
    ⟨h.sound.keyed.evict node, h.sound.queue⟩
  obtain ⟨-, hAfter, -⟩ := visit_of_open harmless_nothing now (m.store.evict node).1
    hEvicted h.isOpen
  refine ⟨sound_after h.sound (.evict now node), hAfter.isOpen, ?_⟩
  show (visit now _ _ _).2.registry.Covers (visit now _ _ _).2.store
  rw [hAfter.registry, hAfter.store]
  exact h.covers.evict node

theorem attentive_update {op : Store.Operation} (hSilent : ∀ id node, op.reportsOn id node = []) :
    (m.after (.update op)).Attentive :=
  ⟨sound_after h.sound (.update op), h.isOpen, h.covers.step hSilent⟩

theorem attentive_meet (incident : Incident) : (m.meet incident).Attentive := by
  cases incident with
  | ingest r => exact attentive_ingest h r
  | evict now node => exact attentive_evict h now node
  | setState id state => exact attentive_update h fun _ _ => rfl
  | setSequence id sequence => exact attentive_update h fun _ _ => rfl
  | remove id => exact attentive_update h fun _ _ => rfl
  | removeReplica id node => exact attentive_update h fun _ _ => rfl
  | setHealth node health =>
    exact ⟨⟨h.sound.keyed, h.sound.queue⟩, h.isOpen, h.covers.changeStatus node _⟩
  | setOperational node operational expiry =>
    exact ⟨⟨h.sound.keyed, h.sound.queue⟩, h.isOpen, h.covers.changeStatus node _⟩

theorem attentive_meetAll (incidents : List Incident) : (m.meetAll incidents).Attentive := by
  induction incidents generalizing m with
  | nil => exact h
  | cons incident rest ih => exact ih (attentive_meet h incident)

end Attentive

/-- A manager of whatever an image is built into is attentive from the start. -/
theorem attentive_of_build (config : Config) {image : ClusterImage} {store : Store}
    {registry : Registry} (h : image.build = .ok (store, registry)) :
    (Manager.of config store registry).Attentive where
  sound := sound_of config (ClusterImage.keyed_build h) registry
  isOpen := rfl
  covers := Registry.covers_of_build h

/-! ## The evaluations after a node has changed -/

/-- The evaluations of the containers of a set that still exist: each once, in ascending order, as the
store and the registry stand. -/
structure Surveys (m : Manager) (now : Moment) (set : ContainerSet) (evaluations : List Evaluation) :
    Prop where
  ascending : (evaluations.map Evaluation.id).Pairwise (· < ·)
  mem_iff : ∀ id, id ∈ evaluations.map Evaluation.id ↔ id ∈ set.keys ∧ id ∈ m.store.ids
  current : ∀ e ∈ evaluations, m.store.evaluate (m.lookup now) e.id = .ok e

/-- The evaluation of a container is about that container. -/
theorem id_of_evaluate {m : Manager} (h : m.Sound) {now : Moment} {id : ContainerId} {e : Evaluation}
    (hEvaluate : m.store.evaluate (m.lookup now) id = .ok e) : e.id = id := by
  obtain ⟨s, hKnown, rfl⟩ := (m.store.evaluate_eq_ok_iff _ id e).1 hEvaluate
  exact Store.id_of_snapshot h.keyed hKnown

/-- There is an evaluation exactly of every container that exists. -/
theorem exists_evaluate_iff (m : Manager) (now : Moment) (id : ContainerId) :
    (∃ e, m.store.evaluate (m.lookup now) id = .ok e) ↔ id ∈ m.store.ids := by
  rw [← Store.exists_snapshot_iff]
  simp only [Store.evaluate_eq_ok_iff]
  constructor
  · rintro ⟨_, s, hKnown, -⟩
    exact ⟨s, hKnown⟩
  · rintro ⟨s, hKnown⟩
    exact ⟨_, s, hKnown, rfl⟩

theorem surveys_filterMap {m : Manager} (h : m.Sound) (now : Moment) (set : ContainerSet) :
    m.Surveys now set
      (set.keys.filterMap fun id => (m.store.evaluate (m.lookup now) id).toOption) := by
  refine ⟨?_, fun id => ?_, fun e he => ?_⟩
  · rw [List.pairwise_map, List.pairwise_filterMap]
    refine set.keys_ascending.imp fun {a b} hLt d hd e he => ?_
    rw [id_of_evaluate h (toOption_eq_some_iff.1 hd), id_of_evaluate h (toOption_eq_some_iff.1 he)]
    exact hLt
  · simp only [List.mem_map, List.mem_filterMap, toOption_eq_some_iff, ← m.exists_evaluate_iff now]
    constructor
    · rintro ⟨e, ⟨id', hMem, hEvaluate⟩, rfl⟩
      rw [id_of_evaluate h hEvaluate]
      exact ⟨hMem, e, hEvaluate⟩
    · rintro ⟨hMem, e, hEvaluate⟩
      exact ⟨e, ⟨id, hMem, hEvaluate⟩, id_of_evaluate h hEvaluate⟩
  · obtain ⟨id, -, hEvaluate⟩ := List.mem_filterMap.1 he
    rw [toOption_eq_some_iff] at hEvaluate
    rw [id_of_evaluate h hEvaluate, hEvaluate]

/-- The change of a node with a set is answered with the evaluations of that set. -/
theorem nodeChange_of_open {m : Manager} (h : m.Sound) (hOpen : m.queue.closed = false) (now : Moment)
    {node : NodeId} {set : ContainerSet} (hSet : m.registry.containers node = .ok set) :
    ∃ evaluations, (m.nodeChange now node).1 = .ok evaluations ∧ m.Surveys now set evaluations := by
  refine ⟨_, ?_, surveys_filterMap h now set⟩
  rw [nodeChange, hSet]
  exact (visit_of_open harmless_dispatch_closes now set.keys h hOpen).1

end Manager

/-- From the building of an image on, and whatever happens then, the set of a registered node holds every
container with a live replica on it.  So the change of a node, at any moment, is answered with one evaluation
for each container of its set that still exists, in ascending order, and none with a live replica on the
node is missed. -/
theorem node_change_misses_nothing (config : Config) (image : ClusterImage) (store : Store)
    (registry : Registry) (hBuild : image.build = .ok (store, registry))
    (incidents : List Manager.Incident) (node : NodeId) (info : NodeInfo)
    (hRegistered : ((Manager.of config store registry).meetAll incidents).registry.info node = .ok info) :
    let m := (Manager.of config store registry).meetAll incidents
    ∃ set, m.registry.containers node = .ok set ∧
      (∀ id, m.store.LiveOn id node → id ∈ set.keys) ∧
      ∀ now, ∃ evaluations, (m.nodeChange now node).1 = .ok evaluations ∧
        m.Surveys now set evaluations ∧
        ∀ id, m.store.LiveOn id node → id ∈ evaluations.map Evaluation.id := by
  intro m
  have hAttentive : m.Attentive :=
    Manager.attentive_meetAll (Manager.attentive_of_build config hBuild) incidents
  have hNode : (m.registry.nodes.get? node).isSome = true := by
    change m.registry.info node = .ok info at hRegistered
    rw [Registry.info] at hRegistered
    cases hInfo : m.registry.nodes.get? node with
    | none =>
      rw [hInfo] at hRegistered
      cases hRegistered
    | some _ => rfl
  obtain ⟨set, hSet⟩ := Option.isSome_iff_exists.1 ((hAttentive.covers.listed node).trans hNode)
  have hContainers := (Registry.containers_eq_ok_iff m.registry node set).2 hSet
  have hCovered : ∀ id, m.store.LiveOn id node → id ∈ set.keys := fun id hLive =>
    hAttentive.covers.covered id node set hLive hSet
  refine ⟨set, hContainers, hCovered, fun now => ?_⟩
  obtain ⟨evaluations, hDone, hSurveys⟩ :=
    Manager.nodeChange_of_open hAttentive.sound hAttentive.isOpen now hContainers
  refine ⟨evaluations, hDone, hSurveys, fun id hLive => (hSurveys.mem_iff id).2 ⟨hCovered id hLive, ?_⟩⟩
  obtain ⟨snapshot, -, hSnapshot, -⟩ := hLive
  exact (m.store.exists_snapshot_iff id).1 ⟨snapshot, hSnapshot⟩

/-- One of two containers on a node is removed, and the other got there by a report after the other node had
left.  The change of the node is answered with the evaluation of the latter alone, though its set holds both. -/
theorem node_change_misses_nothing_of_two :
    let now : Moment := ⟨⟨⟨2024, 1, 1, 0, 0, 0, 0⟩, by decide⟩, 0⟩
    let status : NodeStatus := ⟨.inService, .healthy, none⟩
    let report : ContainerId → NodeId → Report := fun id node =>
      ⟨id, node, .closed, some 7, some "b", false⟩
    let image : ClusterImage :=
      ⟨[⟨"a", "", status⟩, ⟨"b", "", status⟩], [⟨⟨1⟩, .closed, 1, 0⟩, ⟨⟨2⟩, .closed, 1, 0⟩],
        [report ⟨1⟩ "a", report ⟨2⟩ "b"]⟩
    let incidents : List Manager.Incident :=
      [.setHealth "b" .dead, .evict now "b", .ingest (report ⟨2⟩ "a"), .ingest (report ⟨3⟩ "a"),
        .remove ⟨1⟩]
    ∃ store registry, image.build = .ok (store, registry) ∧
      let m := (Manager.of .default store registry).meetAll incidents
      ∃ info set evaluations, m.registry.info "a" = .ok info ∧ m.registry.containers "a" = .ok set ∧
        (m.nodeChange now "a").1 = .ok evaluations ∧ ⟨1⟩ ∈ set.keys ∧
        ∀ id, id ∈ evaluations.map Evaluation.id ↔ id = ⟨2⟩ := by
  intro now status report image incidents
  -- What the incidents leave is read off once; the rest follows for any such manager.
  have hReads : image.build.toOption.map (fun parts =>
      let m := (Manager.of .default parts.1 parts.2).meetAll incidents
      ((m.registry.info "a").toOption, (m.registry.containers "a").toOption.map Table.keys,
        m.store.ids)) = some (some ⟨"a", "", status⟩, some [⟨1⟩, ⟨2⟩], [⟨2⟩]) := by
    decide +kernel
  obtain ⟨parts, hParts, hAll⟩ := Option.map_eq_some_iff.1 hReads
  have hBuild : image.build = .ok parts := toOption_eq_some_iff.1 hParts
  refine ⟨parts.1, parts.2, hBuild, ?_⟩
  intro m
  change ((m.registry.info "a").toOption, (m.registry.containers "a").toOption.map Table.keys,
    m.store.ids) = _ at hAll
  rw [Prod.mk.injEq, Prod.mk.injEq, toOption_eq_some_iff, Option.map_eq_some_iff] at hAll
  obtain ⟨hRegistered, ⟨set, hSet, hMembers⟩, hIds⟩ := hAll
  rw [toOption_eq_some_iff] at hSet
  obtain ⟨set', hSet', -, hAnswer⟩ := node_change_misses_nothing .default image parts.1 parts.2 hBuild
    incidents "a" ⟨"a", "", status⟩ hRegistered
  obtain ⟨evaluations, hDone, hSurveys, -⟩ := hAnswer now
  obtain rfl : set = set' := Except.ok.inj (hSet.symm.trans hSet')
  refine ⟨_, set, evaluations, hRegistered, hSet, hDone, by simp [hMembers], fun id => ?_⟩
  rw [hSurveys.mem_iff, hMembers]
  change _ ∧ id ∈ m.store.ids ↔ _
  rw [hIds, List.mem_singleton]
  exact ⟨And.right, fun hTwo => ⟨by simp [hTwo], hTwo⟩⟩

end ReplicaUpkeep
