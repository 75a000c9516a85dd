import ReplicaUpkeep.Proofs.Image.Building
import ReplicaUpkeep.Proofs.Store.Monotone
import ReplicaUpkeep.Proofs.Store.Shown

/-!
# Which images are accepted

An image is accepted exactly if it is *consistent*: its nodes and its containers have distinct names,
every report is on a listed container, and the reports on each replica are coherent, in the order in which
the image gives them and whatever stands between them.  Otherwise the error names the first entry that
does not go with those before it, the nodes coming before the containers and these before the reports.

An accepted image is built into what it lists and nothing else.  The snapshot of a container shows each
node as the image's reports on it say.
-/

namespace ReplicaUpkeep

namespace ClusterImage

/-- The entries of the image go with each other. -/
structure Consistent (image : ClusterImage) : Prop where
  nodes : (image.nodes.map NodeInfo.id).Nodup
  containers : (image.containers.map Container.id).Nodup
  listed : ∀ r ∈ image.reports, r.container ∈ image.containers.map Container.id
  coherent : ∀ id node, Coherent (reportsOn image.reports id node)

/-- The first entry that does not go with those before it, by the error that names it.  The nodes come
first, then the containers, then the reports; of a report its container is looked at first, then its
sequence, then its origin. -/
inductive FirstFault (image : ClusterImage) : Error → Prop
  | node (before : List NodeInfo) (info : NodeInfo) (after : List NodeInfo)
    (hSplit : image.nodes = before ++ info :: after) (hBefore : (before.map NodeInfo.id).Nodup)
    (hTaken : info.id ∈ before.map NodeInfo.id) : FirstFault image (.nodeExists info.id)
  | container (before : List Container) (c : Container) (after : List Container)
    (hNodes : (image.nodes.map NodeInfo.id).Nodup)
    (hSplit : image.containers = before ++ c :: after) (hBefore : (before.map Container.id).Nodup)
    (hTaken : c.id ∈ before.map Container.id) : FirstFault image (.containerExists c.id)
  | unlisted (before : List Report) (r : Report) (after : List Report)
    (hSplit : image.reports = before ++ r :: after)
    (hBefore : { image with reports := before }.Consistent)
    (hUnlisted : r.container ∉ image.containers.map Container.id) :
    FirstFault image (.containerNotFound r.container)
  | regressed (before : List Report) (r : Report) (after : List Report)
    (hSplit : image.reports = before ++ r :: after)
    (hBefore : { image with reports := before }.Consistent) (old new : UInt64)
    (hOld : ((reportsOn before r.container r.node).filterMap Report.sequence).getLast? = some old)
    (hNew : r.sequence = some new) (hBack : new < old) :
    FirstFault image (.invalidReport r.container (.replicaRegressed r.node old new))
  | changed (before : List Report) (r : Report) (after : List Report)
    (hSplit : image.reports = before ++ r :: after)
    (hBefore : { image with reports := before }.Consistent) (old new : NodeId)
    (hOld : ((reportsOn before r.container r.node).filterMap Report.origin).getLast? = some old)
    (hNew : r.origin = some new) (hOther : old ≠ new)
    (hAhead : ∀ b a,
      ((reportsOn before r.container r.node).filterMap Report.sequence).getLast? = some b →
        r.sequence = some a → b ≤ a) :
    FirstFault image (.invalidReport r.container (.originChanged r.node old new))

/-! ## Each pass -/

theorem registryOf_accepted_iff (nodes : List NodeInfo) :
    (∃ g, registryOf nodes = .ok g) ↔ (nodes.map NodeInfo.id).Nodup :=
  Registry.collects_addNode.pass_accepted_iff (fun _ => rfl) nodes

theorem storeOf_accepted_iff (containers : List Container) :
    (∃ s, storeOf containers = .ok s) ↔ (containers.map Container.id).Nodup :=
  Store.collects_add.pass_accepted_iff (fun _ => rfl) containers

theorem info_registryOf {nodes : List NodeInfo} {g : Registry} (h : registryOf nodes = .ok g)
    (node : NodeId) (info : NodeInfo) :
    g.nodes.get? node = some info ↔ info ∈ nodes ∧ info.id = node :=
  Registry.collects_addNode.view_pass (fun _ => rfl) h node info

theorem container?_storeOf {containers : List Container} {s : Store}
    (h : storeOf containers = .ok s) (id : ContainerId) (c : Container) :
    s.container? id = some c ↔ c ∈ containers ∧ c.id = id :=
  Store.collects_add.view_pass (fun _ => rfl) h id c

/-- The reports of a list with one more are coherent on every replica exactly if those of the list are,
and those on the replica of the last one with it. -/
theorem coherent_reportsOn_concat_iff (reports : List Report) (r : Report) :
    (∀ id node, Coherent (reportsOn (reports ++ [r]) id node)) ↔
      (∀ id node, Coherent (reportsOn reports id node)) ∧
        Coherent (reportsOn reports r.container r.node ++ [r]) := by
  have hLast : ∀ id node, reportsOn [r] id node =
      if id = r.container ∧ node = r.node then [r] else [] := by
    intro id node
    simp [reportsOn, List.filter_cons]
  simp only [reportsOn_append, hLast]
  constructor
  · intro h
    have hOwn := h r.container r.node
    rw [if_pos ⟨rfl, rfl⟩] at hOwn
    refine ⟨fun id node => ?_, hOwn⟩
    have hBoth := h id node
    split at hBoth
    · exact ((coherent_concat_iff _ r).1 hBoth).1
    · rwa [List.append_nil] at hBoth
  · rintro ⟨hEarlier, hOwn⟩ id node
    split
    · rename_i hOn
      obtain ⟨rfl, rfl⟩ := hOn
      exact hOwn
    · rw [List.append_nil]
      exact hEarlier id node

section Reports

variable {containers : List Container} {known : Store} (hKnown : storeOf containers = .ok known)
include hKnown

/-- The store built so far knows the listed containers. -/
theorem entry_unknown_iff {reports : List Report} {s : Store}
    (hReports : reports.foldlM Store.report known = .ok s) (id : ContainerId) :
    s.entries.get? id = none ↔ id ∉ containers.map Container.id := by
  rw [← Store.collects_add.view_eq_none_iff (fun _ => rfl) hKnown id,
    ← container?_of_built hReports id, Store.container?, Option.map_eq_none_iff]

/-- One more report is taken in exactly if its container is listed and it is coherent with the earlier
reports on its replica. -/
theorem report_of_built_accepted_iff {reports : List Report} {s : Store}
    (hReports : reports.foldlM Store.report known = .ok s) (r : Report) :
    (∃ s', s.report r = .ok s') ↔
      r.container ∈ containers.map Container.id ∧
        Coherent (reportsOn reports r.container r.node ++ [r]) := by
  obtain ⟨hRun, hHistory⟩ := run_of_built hKnown hReports
  rw [← hHistory, ← hRun, Store.report_accepted_iff, hRun]
  refine and_congr_left fun _ => ?_
  rw [← Option.isSome_iff_exists, Option.isSome_iff_ne_none, ne_eq,
    entry_unknown_iff hKnown hReports, not_not]

theorem reports_accepted_iff (reports : List Report) :
    (∃ s, reports.foldlM Store.report known = .ok s) ↔
      (∀ r ∈ reports, r.container ∈ containers.map Container.id) ∧
        ∀ id node, Coherent (reportsOn reports id node) := by
  induction reports using List.reverseRecOn with
  | nil => exact ⟨fun _ => ⟨by simp, fun _ _ => ⟨.nil, .nil⟩⟩, fun _ => ⟨known, rfl⟩⟩
  | append_singleton rest r ih =>
    simp only [foldlM_concat_eq_ok_iff, coherent_reportsOn_concat_iff rest r,
      List.forall_mem_append, List.forall_mem_singleton]
    constructor
    · rintro ⟨s', s, hRest, hLast⟩
      obtain ⟨hListed, hCoherent⟩ := ih.1 ⟨s, hRest⟩
      obtain ⟨hKnows, hOwn⟩ := (report_of_built_accepted_iff hKnown hRest r).1 ⟨s', hLast⟩
      exact ⟨⟨hListed, hKnows⟩, hCoherent, hOwn⟩
    · rintro ⟨⟨hListed, hKnows⟩, hCoherent, hOwn⟩
      obtain ⟨s, hRest⟩ := ih.2 ⟨hListed, hCoherent⟩
      obtain ⟨s', hLast⟩ := (report_of_built_accepted_iff hKnown hRest r).2 ⟨hKnows, hOwn⟩
      exact ⟨s', s, hRest, hLast⟩

/-- What a store built so far has against one more report. -/
theorem report_of_built_refused_iff {reports : List Report} {s : Store}
    (hReports : reports.foldlM Store.report known = .ok s) (r : Report) (fault : Error) :
    s.report r = .error fault ↔
      Store.Refuses s (reportsOn reports r.container r.node) r fault := by
  obtain ⟨hRun, hHistory⟩ := run_of_built hKnown hReports
  rw [← hRun, Store.report_eq_error_iff_refuses, hHistory]

end Reports

/-! ## The whole image -/

theorem build_accepted_iff (image : ClusterImage) :
    (∃ parts, image.build = .ok parts) ↔ image.Consistent := by
  simp only [Prod.exists, build_eq_ok_iff]
  constructor
  · rintro ⟨s, g, listed, known, hListed, hKnown, hReports, -⟩
    obtain ⟨hAll, hCoherent⟩ := (reports_accepted_iff hKnown image.reports).1 ⟨s, hReports⟩
    exact ⟨(registryOf_accepted_iff _).1 ⟨listed, hListed⟩,
      (storeOf_accepted_iff _).1 ⟨known, hKnown⟩, hAll, hCoherent⟩
  · intro h
    obtain ⟨listed, hListed⟩ := (registryOf_accepted_iff _).2 h.nodes
    obtain ⟨known, hKnown⟩ := (storeOf_accepted_iff _).2 h.containers
    obtain ⟨s, hReports⟩ := (reports_accepted_iff hKnown _).2 ⟨h.listed, h.coherent⟩
    exact ⟨s, _, listed, known, hListed, hKnown, hReports, rfl⟩

/-- The report at which the third pass ends is the first that does not go with those before it. -/
theorem firstFault_of_report {image : ClusterImage} {known s : Store} {before after : List Report}
    {r : Report} {fault : Error} (hNodes : (image.nodes.map NodeInfo.id).Nodup)
    (hKnown : storeOf image.containers = .ok known)
    (hSplit : image.reports = before ++ r :: after)
    (hReports : before.foldlM Store.report known = .ok s)
    (hRefused : s.report r = .error fault) : image.FirstFault fault := by
  obtain ⟨hListed, hCoherent⟩ := (reports_accepted_iff hKnown before).1 ⟨s, hReports⟩
  have hBefore : { image with reports := before }.Consistent :=
    ⟨hNodes, (storeOf_accepted_iff _).1 ⟨known, hKnown⟩, hListed, hCoherent⟩
  cases (report_of_built_refused_iff hKnown hReports r fault).1 hRefused with
  | unknown hUnknown =>
    exact .unlisted before r after hSplit hBefore
      ((entry_unknown_iff hKnown hReports r.container).1 hUnknown)
  | regressed old new hOld hNew hBack =>
    exact .regressed before r after hSplit hBefore old new hOld hNew hBack
  | changed old new hOld hNew hOther hAhead =>
    exact .changed before r after hSplit hBefore old new hOld hNew hOther hAhead

/-- A report that a store built of those before it refuses ends the third pass. -/
theorem build_eq_error_of_report {image : ClusterImage} {before after : List Report} {r : Report}
    {fault : Error} (hSplit : image.reports = before ++ r :: after)
    (hBefore : { image with reports := before }.Consistent)
    (hRefuses : ∀ known s, storeOf image.containers = .ok known →
      before.foldlM Store.report known = .ok s →
        Store.Refuses s (reportsOn before r.container r.node) r fault) :
    image.build = .error fault := by
  obtain ⟨listed, hListed⟩ := (registryOf_accepted_iff _).2 hBefore.nodes
  obtain ⟨known, hKnown⟩ := (storeOf_accepted_iff _).2 hBefore.containers
  obtain ⟨s, hReports⟩ := (reports_accepted_iff hKnown _).2 ⟨hBefore.listed, hBefore.coherent⟩
  have hRefused := (report_of_built_refused_iff hKnown hReports r fault).2
    (hRefuses known s hKnown hReports)
  refine (build_eq_error_iff image fault).2 (.inr (.inr ⟨listed, known, hListed, hKnown, ?_⟩))
  exact (foldlM_eq_error_iff _ _ _).2 ⟨before, r, after, s, hSplit, hReports, hRefused⟩

theorem build_refused_iff (image : ClusterImage) (fault : Error) :
    image.build = .error fault ↔ image.FirstFault fault := by
  constructor
  · intro h
    rcases (build_eq_error_iff image fault).1 h with
      hNodes | ⟨hNodes, hContainers⟩ | ⟨listed, known, hListed, hKnown, hReports⟩
    · obtain ⟨before, info, after, hSplit, hBefore, hTaken, rfl⟩ :=
        (Registry.collects_addNode.pass_refused_iff (fun _ => rfl) _ _).1 hNodes
      exact .node before info after hSplit hBefore hTaken
    · obtain ⟨before, c, after, hSplit, hBefore, hTaken, rfl⟩ :=
        (Store.collects_add.pass_refused_iff (fun _ => rfl) _ _).1 hContainers
      exact .container before c after ((registryOf_accepted_iff _).1 hNodes) hSplit hBefore hTaken
    · obtain ⟨before, r, after, s, hSplit, hBefore, hRefused⟩ :=
        (foldlM_eq_error_iff _ _ _).1 hReports
      exact firstFault_of_report ((registryOf_accepted_iff _).1 ⟨listed, hListed⟩) hKnown hSplit
        hBefore hRefused
  · intro h
    cases h with
    | node before info after hSplit hBefore hTaken =>
      refine (build_eq_error_iff image _).2 (.inl ?_)
      exact (Registry.collects_addNode.pass_refused_iff (fun _ => rfl) _ _).2
        ⟨before, info, after, hSplit, hBefore, hTaken, rfl⟩
    | container before c after hNodes hSplit hBefore hTaken =>
      refine (build_eq_error_iff image _).2
        (.inr (.inl ⟨(registryOf_accepted_iff _).2 hNodes, ?_⟩))
      exact (Store.collects_add.pass_refused_iff (fun _ => rfl) _ _).2
        ⟨before, c, after, hSplit, hBefore, hTaken, rfl⟩
    | unlisted before r after hSplit hBefore hUnlisted =>
      refine build_eq_error_of_report hSplit hBefore fun known s hKnown hReports => ?_
      exact .unknown ((entry_unknown_iff hKnown hReports r.container).2 hUnlisted)
    | regressed before r after hSplit hBefore old new hOld hNew hBack =>
      exact build_eq_error_of_report hSplit hBefore fun _ _ _ _ => .regressed old new hOld hNew hBack
    | changed before r after hSplit hBefore old new hOld hNew hOther hAhead =>
      exact build_eq_error_of_report hSplit hBefore fun _ _ _ _ =>
        .changed old new hOld hNew hOther hAhead

/-! ## What an accepted image is built into -/

section Contents

variable {image : ClusterImage} {s : Store} {g : Registry} (h : image.build = .ok (s, g))
include h

theorem container?_build (id : ContainerId) (c : Container) :
    s.container? id = some c ↔ c ∈ image.containers ∧ c.id = id := by
  obtain ⟨listed, known, -, hKnown, hReports, -⟩ := (build_eq_ok_iff image s g).1 h
  rw [container?_of_built hReports, container?_storeOf hKnown]

theorem get?_nodes_build (node : NodeId) (info : NodeInfo) :
    g.nodes.get? node = some info ↔ info ∈ image.nodes ∧ info.id = node := by
  obtain ⟨listed, known, hListed, -, -, rfl⟩ := (build_eq_ok_iff image s g).1 h
  rw [nodes_hostAll, info_registryOf hListed]

/-- The record of a replica is what the image's reports on it leave. -/
theorem record?_build (id : ContainerId) (node : NodeId) :
    s.record? id node = Record.afterReports none (reportsOn image.reports id node) := by
  obtain ⟨listed, known, -, hKnown, hReports, -⟩ := (build_eq_ok_iff image s g).1 h
  obtain ⟨hRun, hHistory⟩ := run_of_built hKnown hReports
  rw [← hRun, Store.record?_run, hHistory]

end Contents

end ClusterImage

/-- An image is accepted exactly if it is consistent, and refused with the error that names its first
faulty entry.  An accepted one is built into exactly the containers and nodes that it lists, as it lists
them, and every container has a snapshot that shows each node as the image's reports on it say, the nodes
in strictly ascending order. -/
theorem build_accepts_consistent (image : ClusterImage) :
    ((∃ parts, image.build = .ok parts) ↔ image.Consistent) ∧
    (∀ fault, image.build = .error fault ↔ image.FirstFault fault) ∧
    ∀ store registry, image.build = .ok (store, registry) →
      (∀ id c, store.container id = .ok c ↔ c ∈ image.containers ∧ c.id = id) ∧
      (∀ node info, registry.info node = .ok info ↔ info ∈ image.nodes ∧ info.id = node) ∧
      ∀ c ∈ image.containers, ∃ snapshot, store.snapshot c.id = .ok snapshot ∧
        snapshot.container = c ∧ snapshot.replicas.Pairwise (fun a b => a.node < b.node) ∧
        ∀ replica, replica ∈ snapshot.replicas ↔
          Shows replica.node (reportsOn image.reports c.id replica.node) replica := by
  refine ⟨image.build_accepted_iff, image.build_refused_iff, fun store registry h =>
    ⟨fun id c => ?_, fun node info => ?_, fun c hc => ?_⟩⟩
  · rw [Store.container_eq_ok_iff_container?, ClusterImage.container?_build h]
  · rw [← ClusterImage.get?_nodes_build h, Registry.info]
    cases registry.nodes.get? node <;> simp
  · obtain ⟨e, hEntry, hContainer⟩ := Option.map_eq_some_iff.1
      ((ClusterImage.container?_build h c.id c).2 ⟨hc, rfl⟩)
    have hSnapshot : store.snapshot c.id = .ok (Store.snapshotOf e) :=
      (store.snapshot_eq_ok_iff c.id _).2 ⟨e, hEntry, rfl⟩
    exact ⟨_, hSnapshot, hContainer, Store.node_lt_of_snapshot hSnapshot, fun replica =>
      Store.mem_snapshot_iff hSnapshot (ClusterImage.record?_build h c.id replica.node)⟩

/-- Two replicas are reported in turn, one of them last without sequence and origin; a node that is not
listed is reported as well.  A further report is refused for going back behind the first of its replica,
across the one that gave no sequence. -/
theorem build_of_interleaved_reports :
    let status : NodeStatus := ⟨.inService, .healthy, none⟩
    let atFive : Report := ⟨⟨1⟩, "a", .closed, some 5, some "a", false⟩
    let silent : Report := ⟨⟨1⟩, "a", .closed, none, none, false⟩
    let atFour : Report := ⟨⟨1⟩, "a", .closed, some 4, some "a", false⟩
    let strange : Report := ⟨⟨1⟩, "x", .closed, some 7, some "b", false⟩
    let image : ClusterImage := {
      nodes := [⟨"b", "", status⟩, ⟨"a", "", status⟩]
      containers := [⟨⟨2⟩, .closed, 1, 0⟩, ⟨⟨1⟩, .closed, 2, 0⟩]
      reports := [atFive, ⟨⟨2⟩, "b", .closed, some 3, some "b", false⟩, strange, silent] }
    image.Consistent ∧
    (∃ store registry snapshot, image.build = .ok (store, registry) ∧
      store.container ⟨2⟩ = .ok ⟨⟨2⟩, .closed, 1, 0⟩ ∧ registry.info "a" = .ok ⟨"a", "", status⟩ ∧
      store.snapshot ⟨1⟩ = .ok snapshot ∧
      ⟨"a", .unhealthy, 0, some "a", false⟩ ∈ snapshot.replicas ∧
      ⟨"x", .closed, 7, some "b", false⟩ ∈ snapshot.replicas) ∧
    { image with reports := image.reports ++ [atFour] }.build =
      .error (.invalidReport ⟨1⟩ (.replicaRegressed "a" 5 4)) := by
  intro status atFive silent atFour strange image
  have hOk : image.build.isOk = true := by decide +kernel
  have hOnA : reportsOn image.reports ⟨1⟩ "a" = [atFive, silent] := by decide
  have hOnX : reportsOn image.reports ⟨1⟩ "x" = [strange] := by decide
  obtain ⟨hAccepted, -, hContents⟩ := build_accepts_consistent image
  obtain ⟨-, hRefused, -⟩ :=
    build_accepts_consistent { image with reports := image.reports ++ [atFour] }
  cases hBuild : image.build with
  | error fault =>
    rw [hBuild] at hOk
    cases hOk
  | ok parts =>
    have hConsistent : image.Consistent := hAccepted.1 ⟨parts, hBuild⟩
    obtain ⟨hContainers, hNodes, hSnapshots⟩ := hContents parts.1 parts.2 hBuild
    obtain ⟨snapshot, hSnapshot, -, -, hShows⟩ :=
      hSnapshots ⟨⟨1⟩, .closed, 2, 0⟩ (by simp [image])
    refine ⟨hConsistent, ⟨parts.1, parts.2, snapshot, rfl, (hContainers _ _).2 (by simp [image]),
      (hNodes _ _).2 (by simp [image]), hSnapshot, (hShows _).2 ?_, (hShows _).2 ?_⟩, ?_⟩
    · rw [hOnA]
      exact .lacking [atFive] silent (.inl rfl) (by decide)
    · rw [hOnX]
      exact .full [] strange 7 "b" rfl rfl (by decide)
    · refine (hRefused _).2 (.regressed image.reports atFour [] rfl hConsistent 5 4 ?_ rfl (by decide))
      show ((reportsOn image.reports ⟨1⟩ "a").filterMap Report.sequence).getLast? = some 5
      rw [hOnA]
      rfl

end ReplicaUpkeep
