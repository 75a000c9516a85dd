import ReplicaUpkeep.Manager
import ReplicaUpkeep.Proofs.Image.Consistency
import ReplicaUpkeep.Proofs.Registry.Hosting

/-!
# Building an image and replaying its reports

There are two ways to take in the reports of an image: they are built into a store and a registry, or
they are given one after another to a manager that knows the image's nodes and containers.  Both leave
the same store, so every snapshot is the same.  They differ in what nodes are believed to host.  A manager
takes a container out of the set of a node that reports its deletion, while building leaves it in.

So the sets are told by the reports on each replica: a node hosts what it was reported to have at all if
the image is built, and what it was last reported to have if the reports are replayed.
-/

namespace ReplicaUpkeep

/-- The node was last reported to have the container. -/
def LastHeld (reports : List Report) (id : ContainerId) (node : NodeId) : Prop :=
  ∃ last, (reportsOn reports id node).getLast? = some last ∧ last.state ≠ .deleted

theorem lastHeld_concat (reports : List Report) (r : Report) (id : ContainerId) (node : NodeId) :
    LastHeld (reports ++ [r]) id node ↔
      if id = r.container ∧ node = r.node then r.state ≠ .deleted else LastHeld reports id node := by
  unfold LastHeld
  rw [reportsOn_append]
  split
  · rename_i hOwn
    have hLast : reportsOn [r] id node = [r] := by simp [reportsOn, hOwn]
    rw [hLast, List.getLast?_concat]
    simp
  · rename_i hOther
    have hNone : reportsOn [r] id node = [] := by
      simpa [reportsOn, List.filter_cons] using hOther
    rw [hNone, List.append_nil]

namespace Registry

/-- The registry after reports that a manager took in one after another. -/
def followAll (g : Registry) (reports : List Report) : Registry :=
  reports.foldl follow g

theorem followAll_concat (g : Registry) (reports : List Report) (r : Report) :
    g.followAll (reports ++ [r]) = (g.followAll reports).follow r :=
  List.foldl_append

theorem nodes_followAll (g : Registry) (reports : List Report) :
    (g.followAll reports).nodes = g.nodes := by
  induction reports using List.reverseRecOn with
  | nil => rfl
  | append_singleton rest r ih => rw [followAll_concat, nodes_follow, ih]

/-- A node that hosted nothing at first hosts what it was last reported to have. -/
theorem hosted_followAll {g : Registry} {node : NodeId}
    (hNothing : g.hosted.get? node = some .empty) (reports : List Report) :
    ∃ set, (g.followAll reports).hosted.get? node = some set ∧
      ∀ id, id ∈ set.keys ↔ LastHeld reports id node := by
  induction reports using List.reverseRecOn with
  | nil => exact ⟨.empty, hNothing, fun id => by simp [LastHeld, reportsOn, Table.mem_keys_iff]⟩
  | append_singleton rest r ih =>
    obtain ⟨set, hSet, hHosts⟩ := ih
    refine ⟨if node = r.node then hostedNow set r else set, ?_, fun id => ?_⟩
    · rw [followAll_concat, get?_hosted_follow, hSet, Option.map_some]
    · rw [lastHeld_concat]
      by_cases hNode : node = r.node
      · rw [if_pos hNode, mem_keys_hostedNow]
        simp only [hHosts, hNode, and_true]
      · rw [if_neg hNode, hHosts, if_neg fun hOwn => hNode hOwn.2]

end Registry

namespace Manager

/-- A manager of an image's nodes and containers that was given the image's reports one after
another. -/
def replay (config : Config) (image : ClusterImage) : Except Error Manager := do
  let listed ← ClusterImage.registryOf image.nodes
  let known ← ClusterImage.storeOf image.containers
  image.reports.foldlM ingest (.of config known listed)

theorem ingest_eq (m : Manager) (r : Report) :
    m.ingest r =
      (m.store.report r).map fun store => { m with store, registry := m.registry.follow r } :=
  rfl

/-- What the registry makes of a report refuses nothing. -/
theorem foldlM_ingest (reports : List Report) (m : Manager) :
    reports.foldlM ingest m =
      (reports.foldlM Store.report m.store).map fun store =>
        { m with store, registry := m.registry.followAll reports } := by
  induction reports generalizing m with
  | nil => rfl
  | cons r rest ih =>
    rw [List.foldlM_cons, List.foldlM_cons, ingest_eq]
    cases hReport : m.store.report r with
    | error fault => rfl
    | ok store => exact ih { m with store, registry := m.registry.follow r }

end Manager

namespace ClusterImage

/-- What a node was last reported to have was reported on it. -/
theorem hostedAfter_eq_iff {node : NodeId} {reports : List Report} {set : ContainerSet}
    (hHosts : ∀ id, id ∈ set.keys ↔ LastHeld reports id node) :
    hostedAfter .empty node reports = set ↔
      ∀ id last, (reportsOn reports id node).getLast? = some last → last.state ≠ .deleted := by
  constructor
  · rintro rfl id last hLast
    have hReported : reportsOn reports id node ≠ [] := by
      intro hNone
      rw [hNone] at hLast
      cases hLast
    obtain ⟨last', hLast', hLive⟩ := (hHosts id).1 ((mem_keys_hostedAfter node reports id).2 hReported)
    rw [hLast, Option.some.injEq] at hLast'
    exact hLast' ▸ hLive
  · intro hLive
    refine ContainerSet.ext_mem fun id => ?_
    rw [mem_keys_hostedAfter, hHosts]
    rcases List.eq_nil_or_concat' (reportsOn reports id node) with hNone | ⟨_, last, hSome⟩
    · simp [LastHeld, hNone]
    · have hLast : (reportsOn reports id node).getLast? = some last := by
        rw [hSome, List.getLast?_concat]
      refine iff_of_true (by simp [hSome]) ⟨last, hLast, hLive id last hLast⟩

end ClusterImage

/-- For every image that is accepted its reports can be replayed, and this leaves the same containers with
the same snapshots, and the same nodes.  A registered node hosts all that was reported on it if the image is
built, and what it was last reported to have if the reports are replayed; so its sets agree exactly if
none of the last reports on it is of a deletion. -/
theorem replay_agrees_up_to_deletions (config : Config) (image : ClusterImage) (store : Store)
    (registry : Registry) (h : image.build = .ok (store, registry)) :
    ∃ m, Manager.replay config image = .ok m ∧
      m.store.ids = store.ids ∧ (∀ id, m.store.snapshot id = store.snapshot id) ∧
      m.registry.nodes = registry.nodes ∧
      ∀ info ∈ image.nodes, ∃ built replayed,
        registry.containers info.id = .ok built ∧ m.registry.containers info.id = .ok replayed ∧
        (∀ id, id ∈ built.keys ↔ reportsOn image.reports id info.id ≠ []) ∧
        (∀ id, id ∈ replayed.keys ↔ LastHeld image.reports id info.id) ∧
        (built = replayed ↔ ∀ id last,
          (reportsOn image.reports id info.id).getLast? = some last → last.state ≠ .deleted) := by
  obtain ⟨listed, known, hListed, hKnown, hReports, rfl⟩ :=
    (ClusterImage.build_eq_ok_iff image store registry).1 h
  have hReplay : Manager.replay config image =
      .ok { Manager.of config known listed with
        store, registry := listed.followAll image.reports } := by
    simp only [Manager.replay, hListed, hKnown, bind, Except.bind, Manager.foldlM_ingest]
    simp only [Manager.of, hReports, Except.map]
  refine ⟨_, hReplay, rfl, fun _ => rfl, ?_, fun info hInfo => ?_⟩
  · rw [ClusterImage.nodes_hostAll]
    exact Registry.nodes_followAll listed image.reports
  have hNothing : listed.hosted.get? info.id = some .empty := by
    rw [ClusterImage.get?_hosted_registryOf hListed,
      (ClusterImage.info_registryOf hListed info.id info).2 ⟨hInfo, rfl⟩, Option.map_some]
  have hBuilt : (ClusterImage.hostAll listed image.reports).hosted.get? info.id =
      some (ClusterImage.hostedAfter .empty info.id image.reports) := by
    rw [ClusterImage.get?_hosted_hostAll, hNothing, Option.map_some]
  obtain ⟨replayed, hReplayed, hHosts⟩ := Registry.hosted_followAll hNothing image.reports
  exact ⟨_, replayed, (Registry.containers_eq_ok_iff _ _ _).2 hBuilt,
    (Registry.containers_eq_ok_iff _ _ _).2 hReplayed,
    ClusterImage.mem_keys_hostedAfter info.id image.reports, hHosts,
    ClusterImage.hostedAfter_eq_iff hHosts⟩

/-- A node that has one replica left of two: the store shows the same either way, the node's set does not. -/
theorem replay_agrees_up_to_deletions_of_one :
    let status : NodeStatus := ⟨.inService, .healthy, none⟩
    let image : ClusterImage :=
      ⟨[⟨"a", "", status⟩], [⟨⟨1⟩, .closed, 1, 0⟩, ⟨⟨2⟩, .closed, 1, 0⟩],
        [⟨⟨1⟩, "a", .closed, some 5, some "a", false⟩, ⟨⟨2⟩, "a", .closed, some 5, some "a", false⟩,
          ⟨⟨1⟩, "a", .deleted, some 5, some "a", true⟩]⟩
    ∃ store registry m built replayed, image.build = .ok (store, registry) ∧
      Manager.replay .default image = .ok m ∧ (∀ id, m.store.snapshot id = store.snapshot id) ∧
      registry.containers "a" = .ok built ∧ m.registry.containers "a" = .ok replayed ∧
      ⟨1⟩ ∈ built.keys ∧ ⟨1⟩ ∉ replayed.keys ∧ ⟨2⟩ ∈ built.keys ∧ ⟨2⟩ ∈ replayed.keys := by
  intro status image
  have hAccepted : image.build.isOk = true := by decide +kernel
  cases hBuild : image.build with
  | error fault =>
    rw [hBuild] at hAccepted
    cases hAccepted
  | ok parts =>
    obtain ⟨m, hReplay, -, hSnapshots, -, hNodes⟩ :=
      replay_agrees_up_to_deletions .default image parts.1 parts.2 hBuild
    obtain ⟨built, replayed, hBuilt, hReplayed, hReported, hHeld, -⟩ :=
      hNodes ⟨"a", "", status⟩ (by simp [image])
    have hOne : reportsOn image.reports ⟨1⟩ "a" =
        [⟨⟨1⟩, "a", .closed, some 5, some "a", false⟩, ⟨⟨1⟩, "a", .deleted, some 5, some "a", true⟩] := by
      decide +kernel
    have hTwo : reportsOn image.reports ⟨2⟩ "a" = [⟨⟨2⟩, "a", .closed, some 5, some "a", false⟩] := by
      decide +kernel
    refine ⟨parts.1, parts.2, m, built, replayed, rfl, hReplay, hSnapshots, hBuilt, hReplayed,
      (hReported _).2 ?_, fun hMem => ?_, (hReported _).2 ?_, (hHeld _).2 ?_⟩
    · simp [hOne]
    · obtain ⟨last, hLast, hLive⟩ := (hHeld _).1 hMem
      rw [hOne] at hLast
      cases hLast
      exact hLive rfl
    · simp [hTwo]
    · exact ⟨_, by rw [hTwo]; rfl, by decide⟩

/-- Building and replaying do not agree on every accepted image: the only report on a node is of a deletion,
and the node hosts the container if the image is built, and nothing if the report is replayed. -/
theorem replay_disagrees_on_deletion :
    let image : ClusterImage :=
      ⟨[⟨"a", "", ⟨.inService, .healthy, none⟩⟩], [⟨⟨1⟩, .closed, 1, 0⟩],
        [⟨⟨1⟩, "a", .deleted, some 5, some "a", true⟩]⟩
    ¬ ∀ store registry m, image.build = .ok (store, registry) →
      Manager.replay .default image = .ok m →
        ∀ info ∈ image.nodes, registry.containers info.id = m.registry.containers info.id := by
  intro image hAgree
  have hBuilt : image.build.toOption.bind (fun parts =>
      (parts.2.containers "a").toOption.map Table.keys) = some [⟨1⟩] := by
    decide +kernel
  have hReplayed : (Manager.replay .default image).toOption.bind (fun m =>
      (m.registry.containers "a").toOption.map Table.keys) = some [] := by
    decide +kernel
  obtain ⟨parts, hParts, hOne⟩ := Option.bind_eq_some_iff.1 hBuilt
  obtain ⟨m, hManager, hNone⟩ := Option.bind_eq_some_iff.1 hReplayed
  have hSame := hAgree parts.1 parts.2 m (toOption_eq_some_iff.1 hParts)
    (toOption_eq_some_iff.1 hManager) ⟨"a", "", ⟨.inService, .healthy, none⟩⟩ (by simp [image])
  rw [hSame, hNone] at hOne
  cases hOne

end ReplicaUpkeep
