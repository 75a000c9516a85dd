import ReplicaUpkeep.Proofs.Registry.Answers

/-!
# Counting nodes

Nodes are listed by their status as it stands at a moment, and counted by their status as it is stored.
The two differ for a node whose state has lapsed and was not in service: it is *overdue*, counts as what
it was, and is listed as in service.  Here is by how many a count and a listing with the same filter
differ: they differ by the overdue nodes that the filter reaches, and by nothing else.
-/

namespace ReplicaUpkeep

/-- A table keeps as many entries as it has values that pass. -/
theorem Table.size_filter {κ α : Type} [LT κ] (t : Table κ α) (p : α → Bool) :
    (t.filter fun _ a => p a).size = t.values.countP p := by
  rw [size, filter, values, List.countP_map, ← List.countP_eq_length_filter]
  rfl

namespace NodeStatus

/-- Has a state lapsed that was not in service? -/
def isOverdue (s : NodeStatus) (now : Timestamp) : Bool :=
  s.isLapsed now && s.operational ≠ .inService

/-- The status that stands differs from the stored one for overdue nodes alone, as far as a filter can
tell. -/
theorem accepts_effective_of_not_overdue {s : NodeStatus} {now : Timestamp}
    (h : s.isOverdue now = false) (f : NodeFilter) : f.accepts (s.effective now) = f.accepts s := by
  rw [effective]
  split
  · rename_i hLapsed
    -- The state that has lapsed was in service already.
    have hSame : s.operational = .inService := by simpa [isOverdue, hLapsed] using h
    rw [NodeFilter.accepts, NodeFilter.accepts, hSame]
  · rfl

/-- An overdue node reads as in service, with the health that it has. -/
theorem accepts_effective_of_overdue {s : NodeStatus} {now : Timestamp} (h : s.isOverdue now = true)
    (f : NodeFilter) :
    f.accepts (s.effective now) =
      (f.operational.all (fun o => o = .inService) && NodeFilter.accepts ⟨none, f.health⟩ s) := by
  rw [isOverdue, Bool.and_eq_true] at h
  rw [effective, if_pos h.1]
  rfl

end NodeStatus

namespace Registry

section Counting

variable (g : Registry) (now : Timestamp)

/-- How many overdue nodes have a matching stored status. -/
def countOverdue (f : NodeFilter) : Nat :=
  g.nodes.values.countP fun info => info.status.isOverdue now && f.accepts info.status

theorem countNodes_eq_countP (f : NodeFilter) :
    g.countNodes f = g.nodes.values.countP fun info => f.accepts info.status :=
  g.nodes.size_filter fun info => f.accepts info.status

theorem length_listNodes_eq_countP (f : NodeFilter) :
    (g.listNodes now f).length =
      g.nodes.values.countP fun info => f.accepts (info.status.effective now) := by
  rw [listNodes, Table.keys, List.length_map]
  exact g.nodes.size_filter fun info => f.accepts (info.status.effective now)

/-- A count and a listing differ by the overdue nodes: those that a filter matches as they are stored are
only counted, and those that it matches in service are only listed. -/
theorem countNodes_add_eq (f : NodeFilter) :
    g.countNodes f +
        (if f.operational.all (fun o => o = .inService) then g.countOverdue now ⟨none, f.health⟩
          else 0) =
      (g.listNodes now f).length + g.countOverdue now f := by
  have hListed : (if f.operational.all (fun o => o = .inService) then
        g.countOverdue now ⟨none, f.health⟩ else 0) =
      g.nodes.values.countP fun info =>
        info.status.isOverdue now && f.accepts (info.status.effective now) := by
    have hEach : ∀ info : NodeInfo,
        (info.status.isOverdue now && f.accepts (info.status.effective now)) =
          (f.operational.all (fun o => o = .inService) &&
            (info.status.isOverdue now && NodeFilter.accepts ⟨none, f.health⟩ info.status)) := by
      intro info
      cases hOverdue : info.status.isOverdue now with
      | false => simp
      | true => rw [NodeStatus.accepts_effective_of_overdue hOverdue, Bool.true_and, Bool.true_and]
    simp only [hEach]
    cases f.operational.all (fun o => o = .inService) with
    | false => simp
    | true => rfl
  rw [hListed, countNodes_eq_countP, length_listNodes_eq_countP, countOverdue]
  generalize g.nodes.values = infos
  induction infos with
  | nil => rfl
  | cons info rest ih =>
    simp only [List.countP_cons]
    cases hOverdue : info.status.isOverdue now with
    | false =>
      rw [NodeStatus.accepts_effective_of_not_overdue hOverdue]
      simp only [Bool.false_and, Bool.false_eq_true, if_false]
      omega
    | true =>
      simp only [Bool.true_and]
      omega

/-- Overdue nodes are not in service as they are stored. -/
theorem countOverdue_inService (health : Option NodeHealth) :
    g.countOverdue now ⟨some .inService, health⟩ = 0 := by
  refine List.countP_eq_zero.2 fun info _ hBoth => ?_
  simp only [NodeStatus.isOverdue, NodeFilter.accepts, Option.all_some, Bool.and_eq_true,
    decide_eq_true_eq] at hBoth
  exact hBoth.1.2 hBoth.2.1.symm

/-- Counting and listing agree for every filter exactly if no node is overdue. -/
theorem countNodes_eq_iff :
    (∀ f, g.countNodes f = (g.listNodes now f).length) ↔
      ∀ node info, g.info node = .ok info → info.status.isOverdue now = false := by
  simp only [info_eq_ok_iff]
  constructor
  · intro hAgree node info hInfo
    refine Bool.eq_false_iff.2 fun hOverdue => ?_
    -- The filter on its own stored state counts the node and does not list it.
    let f : NodeFilter := ⟨some info.status.operational, none⟩
    have hCounted : 0 < g.countOverdue now f :=
      List.countP_pos_iff.2 ⟨info, (g.nodes.mem_values_iff info).2 ⟨node, hInfo⟩,
        by simp [hOverdue, f, NodeFilter.accepts]⟩
    have hState : info.status.operational ≠ .inService := by
      simpa [NodeStatus.isOverdue] using (Bool.and_eq_true_iff.1 hOverdue).2
    have hElsewhere : f.operational.all (fun o => o = .inService) = false := by simp [f, hState]
    have hBalance := g.countNodes_add_eq now f
    rw [hElsewhere, hAgree f] at hBalance
    simp only [Bool.false_eq_true, if_false] at hBalance
    omega
  · intro hNone f
    have hZero : ∀ f, g.countOverdue now f = 0 := by
      intro f
      refine List.countP_eq_zero.2 fun info hMem hBoth => ?_
      obtain ⟨node, hInfo⟩ := (g.nodes.mem_values_iff info).1 hMem
      rw [hNone node info hInfo] at hBoth
      cases hBoth
    simpa only [hZero, ite_self, Nat.add_zero] using g.countNodes_add_eq now f

end Counting

end Registry

/-- Whatever was done to a registry, a count and a listing with one filter differ at a moment by overdue nodes
and nothing else.  With any state they agree; nodes in service are listed together with all overdue ones;
nodes in another state are counted together with those that are overdue in it.  So they agree for every
filter exactly if no node is overdue. -/
theorem count_differs_by_overdue_nodes (operations : List Registry.Operation) (now : Timestamp) :
    let g := Registry.empty.run operations
    (∀ health, g.countNodes ⟨none, health⟩ = (g.listNodes now ⟨none, health⟩).length) ∧
      (∀ health, g.countNodes ⟨some .inService, health⟩ + g.countOverdue now ⟨none, health⟩ =
        (g.listNodes now ⟨some .inService, health⟩).length) ∧
      (∀ state ≠ .inService, ∀ health, g.countNodes ⟨some state, health⟩ =
        (g.listNodes now ⟨some state, health⟩).length + g.countOverdue now ⟨some state, health⟩) ∧
      ((∀ f, g.countNodes f = (g.listNodes now f).length) ↔
        ∀ node info, g.info node = .ok info → info.status.isOverdue now = false) := by
  intro g
  refine ⟨fun health => ?_, fun health => ?_, fun state hState health => ?_,
    g.countNodes_eq_iff now⟩
  · exact Nat.add_right_cancel (g.countNodes_add_eq now ⟨none, health⟩)
  · have hBalance := g.countNodes_add_eq now ⟨some .inService, health⟩
    rw [g.countOverdue_inService now health] at hBalance
    exact hBalance
  · have hBalance := g.countNodes_add_eq now ⟨some state, health⟩
    simpa only [Option.all_some, decide_eq_true_eq, hState, if_false, Nat.add_zero] using hBalance

/-- One of three nodes is overdue in maintenance, one will be later. -/
theorem count_differs_by_overdue_nodes_of_three :
    let past : Timestamp := ⟨⟨2001, 2, 3, 4, 5, 6, 0⟩, by decide⟩
    let now : Timestamp := ⟨⟨2024, 1, 1, 0, 0, 0, 0⟩, by decide⟩
    let future : Timestamp := ⟨⟨2031, 2, 3, 4, 5, 6, 0⟩, by decide⟩
    let g := Registry.empty.run
      [.addNode ⟨"a", "", ⟨.inService, .healthy, none⟩⟩, .addNode ⟨"b", "", ⟨.inService, .stale, none⟩⟩,
        .addNode ⟨"c", "", ⟨.inMaintenance, .healthy, some future⟩⟩,
        .setOperational "b" .inMaintenance (some past)]
    g.countOverdue now ⟨some .inMaintenance, none⟩ = 1 ∧ .inMaintenance ≠ OperationalState.inService ∧
      g.countNodes ⟨some .inMaintenance, none⟩ =
        (g.listNodes now ⟨some .inMaintenance, none⟩).length + 1 := by
  intro past now future g
  have hOne : g.countOverdue now ⟨some .inMaintenance, none⟩ = 1 := by decide +kernel
  have hOther : OperationalState.inMaintenance ≠ .inService := by decide
  refine ⟨hOne, hOther, ?_⟩
  rw [← hOne]
  exact (count_differs_by_overdue_nodes _ now).2.2.1 .inMaintenance hOther none

/-- A node whose decommissioning has lapsed is listed as in service and not counted as such. -/
theorem overdue_node_listed_not_counted :
    let past : Timestamp := ⟨⟨2001, 2, 3, 4, 5, 6, 0⟩, by decide⟩
    let now : Timestamp := ⟨⟨2024, 1, 1, 0, 0, 0, 0⟩, by decide⟩
    let g := Registry.empty.run [.addNode ⟨"a", "", ⟨.decommissioning, .healthy, some past⟩⟩]
    let f : NodeFilter := ⟨some .inService, none⟩
    g.listNodes now f = ["a"] ∧ g.countNodes f = 0 ∧ g.countNodes f ≠ (g.listNodes now f).length := by
  decide +kernel

end ReplicaUpkeep
