import ReplicaUpkeep.Audit
import ReplicaUpkeep.Proofs.Image.Consistency

/-!
# The order of an image's entries

Of the order in which an image lists its entries only one thing counts: in which order the reports on
the same replica follow each other.  Two images that agree in it and list the same nodes, containers and
reports are both accepted or both refused.  If they are accepted they are built into the same store and the
same registry, so whatever is then looked at comes out the same.

The reason is that everything built is found again by lookups, and each lookup is settled by the reports on
one replica: which containers are known by the list of containers, a record by the reports on its replica in
their order, and what a node hosts by which replicas on it are reported at all.
-/

namespace ReplicaUpkeep

/-- A store is what it knows of containers and what it keeps of replicas. -/
theorem Store.ext_of_lookups {s t : Store} (hContainers : ∀ id, s.container? id = t.container? id)
    (hRecords : ∀ id node, s.record? id node = t.record? id node) : s = t := by
  have hEntries : s.entries = t.entries := by
    refine Table.ext_get? fun id => ?_
    have hContainer := hContainers id
    have hRecord := hRecords id
    simp only [container?, record?] at hContainer hRecord
    cases hs : s.entries.get? id with
    | none =>
      rw [hs, Option.map_none, eq_comm, Option.map_eq_none_iff] at hContainer
      exact hContainer.symm
    | some d =>
      rw [hs, Option.map_some, eq_comm, Option.map_eq_some_iff] at hContainer
      obtain ⟨e, ht, hOwn⟩ := hContainer
      rw [hs, ht] at hRecord
      have hReplicas : d.replicas = e.replicas := Table.ext_get? hRecord
      cases d
      cases e
      simp_all
  cases s
  cases t
  exact congrArg Store.mk hEntries

namespace ClusterImage

/-- The images list the same entries, and the reports on each replica in the same order.  That the lists of
reports are permutations of each other follows from the last. -/
structure Rearranged (i j : ClusterImage) : Prop where
  nodes : i.nodes.Perm j.nodes
  containers : i.containers.Perm j.containers
  inTurn : ∀ id node, reportsOn i.reports id node = reportsOn j.reports id node

namespace Rearranged

variable {i j : ClusterImage}

theorem symm (h : i.Rearranged j) : j.Rearranged i :=
  ⟨h.nodes.symm, h.containers.symm, fun id node => (h.inTurn id node).symm⟩

/-- The reports are the same as well: each is found among those on its own replica. -/
theorem reports (h : i.Rearranged j) : i.reports.Perm j.reports := by
  have hCount : ∀ (l : List Report) (r : Report),
      l.count r = (reportsOn l r.container r.node).count r := fun l r =>
    (List.count_filter (by simp)).symm
  refine List.perm_iff_count.2 fun r => ?_
  rw [hCount i.reports, hCount j.reports, h.inTurn]

theorem consistent (h : i.Rearranged j) (hConsistent : i.Consistent) : j.Consistent where
  nodes := (h.nodes.map NodeInfo.id).nodup_iff.1 hConsistent.nodes
  containers := (h.containers.map Container.id).nodup_iff.1 hConsistent.containers
  listed r hr :=
    (h.containers.map Container.id).mem_iff.1 (hConsistent.listed r (h.reports.mem_iff.2 hr))
  coherent id node := h.inTurn id node ▸ hConsistent.coherent id node

end Rearranged

/-- What a node of an accepted image hosts is what the reports let it host. -/
theorem get?_hosted_build {image : ClusterImage} {s : Store} {g : Registry}
    (h : image.build = .ok (s, g)) (node : NodeId) :
    g.hosted.get? node =
      (g.nodes.get? node).map (fun _ => hostedAfter .empty node image.reports) := by
  obtain ⟨listed, known, hListed, -, -, rfl⟩ := (build_eq_ok_iff image s g).1 h
  rw [get?_hosted_hostAll, get?_hosted_registryOf hListed, nodes_hostAll, Option.map_map]
  rfl

/-- Which containers a node hosts does not depend on the order of the reports. -/
theorem Rearranged.hostedAfter_eq {i j : ClusterImage} (h : i.Rearranged j) (node : NodeId) :
    hostedAfter .empty node i.reports = hostedAfter .empty node j.reports := by
  refine Table.ext_get? fun id => ?_
  rw [get?_hostedAfter, get?_hostedAfter, h.inTurn]

/-- Rearranged images that are accepted are built into the same parts. -/
theorem Rearranged.build_unique {i j : ClusterImage} (h : i.Rearranged j) {s t : Store}
    {g k : Registry} (hi : i.build = .ok (s, g)) (hj : j.build = .ok (t, k)) :
    (s, g) = (t, k) := by
  have hStore : s = t := by
    refine Store.ext_of_lookups (fun id => Option.ext fun c => ?_) fun id node => ?_
    · rw [container?_build hi, container?_build hj, h.containers.mem_iff]
    · rw [record?_build hi, record?_build hj, h.inTurn]
  have hNodes : g.nodes = k.nodes := by
    refine Table.ext_get? fun node => Option.ext fun info => ?_
    rw [get?_nodes_build hi, get?_nodes_build hj, h.nodes.mem_iff]
  have hHosted : g.hosted = k.hosted := by
    refine Table.ext_get? fun node => ?_
    rw [get?_hosted_build hi, get?_hosted_build hj, hNodes, h.hostedAfter_eq]
  cases g
  cases k
  simp_all

end ClusterImage

/-- Images that list the same entries, with the reports on each replica in the same order, are accepted
together.  If they are, then at any moment every container is evaluated the same for both, a number that
neither knows included, and their health reports and plans are the same. -/
theorem rearranged_images_agree (i j : ClusterImage) (h : i.Rearranged j) :
    ((∃ parts, i.build = .ok parts) ↔ ∃ parts, j.build = .ok parts) ∧
    ∀ parts parts', i.build = .ok parts → j.build = .ok parts' → ∀ now : Timestamp,
      (∀ id, parts.1.evaluate (parts.2.lookup? now) id = parts'.1.evaluate (parts'.2.lookup? now) id) ∧
      HealthReport.of parts now = HealthReport.of parts' now ∧
      ClusterPlan.of parts now = ClusterPlan.of parts' now := by
  refine ⟨?_, fun parts parts' hi hj now => ?_⟩
  · rw [ClusterImage.build_accepted_iff, ClusterImage.build_accepted_iff]
    exact ⟨h.consistent, h.symm.consistent⟩
  · have hSame : parts = parts' := h.build_unique hi hj
    subst hSame
    exact ⟨fun _ => rfl, rfl, rfl⟩

/-- The last report of a writer stands first in one image and last in the other; the plan to close it and to
copy another container is the same. -/
theorem rearranged_images_agree_of_two_containers :
    let day : Timestamp := ⟨⟨2024, 1, 1, 0, 0, 0, 0⟩, by decide⟩
    let status : NodeStatus := ⟨.inService, .healthy, none⟩
    let early : Report := ⟨⟨1⟩, "a", .opened, some 4, some "a", false⟩
    let late : Report := ⟨⟨1⟩, "a", .opened, some 6, some "a", false⟩
    let quiet : Report := ⟨⟨1⟩, "b", .quasiClosed, some 4, some "b", false⟩
    let single : Report := ⟨⟨2⟩, "b", .closed, some 7, some "b", false⟩
    let one : Container := ⟨⟨1⟩, .quasiClosed, 2, 0⟩
    let two : Container := ⟨⟨2⟩, .closed, 2, 0⟩
    let i : ClusterImage := ⟨[⟨"a", "", status⟩, ⟨"b", "", status⟩], [one, two],
      [early, late, quiet, single]⟩
    let j : ClusterImage := ⟨[⟨"b", "", status⟩, ⟨"a", "", status⟩], [two, one],
      [single, early, quiet, late]⟩
    i.Rearranged j ∧ ∃ parts, j.build = .ok parts ∧
      (ClusterPlan.of parts day).directives = [.close ⟨1⟩ "a", .replicate ⟨2⟩ (some "b")] := by
  intro day status early late quiet single one two i j
  have hInTurn : ∀ id node, reportsOn i.reports id node = reportsOn j.reports id node := by
    intro id node
    by_cases hOne : id = ⟨1⟩
    · by_cases hA : node = "a" <;> simp [i, j, reportsOn, List.filter_cons, early, late, quiet, single, hOne, hA]
    · simp [i, j, reportsOn, List.filter_cons, early, late, quiet, single, hOne]
  have hRearranged : i.Rearranged j := ⟨by decide, by decide, hInTurn⟩
  obtain ⟨hTogether, hSame⟩ := rearranged_images_agree i j hRearranged
  have hPlan : i.build.toOption.map (fun parts => (ClusterPlan.of parts day).directives) =
      some [.close ⟨1⟩ "a", .replicate ⟨2⟩ (some "b")] := by
    decide +kernel
  cases hBuild : i.build with
  | error fault =>
    rw [hBuild] at hPlan
    cases hPlan
  | ok parts =>
    rw [hBuild] at hPlan
    obtain ⟨parts', hBuild'⟩ := hTogether.1 ⟨parts, hBuild⟩
    obtain ⟨-, -, hPlans⟩ := hSame parts parts' hBuild hBuild' day
    refine ⟨hRearranged, parts', hBuild', ?_⟩
    rw [← hPlans]
    exact Option.some.inj hPlan

end ReplicaUpkeep
