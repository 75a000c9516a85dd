import ReplicaUpkeep.Proofs.Manager.Round
import ReplicaUpkeep.Proofs.Store.Survey

/-!
# The plan and the rounds

The plan for a cluster is made of the very evaluations that a round begins with: each container is
evaluated once, in ascending order, and none of them fails.  Of the plan's repairs, those for one container
are what its evaluation lists, and only those who have to wait have any.
-/

namespace ReplicaUpkeep

/-- Everything that is known can be evaluated. -/
theorem Store.evaluations_findings (s : Store) (lookup : NodeLookup) :
    (s.findings lookup).evaluations =
      (s.entries.map fun _ entry => (snapshotOf entry).evaluate lookup).values := by
  rw [evaluations_findings_eq]
  simp only [snapshots, Table.values, Table.map, List.map_map]
  rfl

namespace Manager

/-- The plan for a manager's cluster at a moment. -/
def plan (m : Manager) (now : Moment) : ClusterPlan :=
  .of (m.store, m.registry) now.wall

variable (m : Manager) (now : Moment)

theorem containers_plan : (m.plan now).containers = (m.evaluations now).values.length := by
  simp [plan, ClusterPlan.of, Store.findings, Store.ids, Table.keys, Table.values, evaluations,
    Table.map]

theorem directives_plan :
    (m.plan now).directives = (m.evaluations now).values.flatMap Evaluation.directives :=
  congrArg (List.flatMap _) (Store.evaluations_findings _ _)

theorem withheld_plan :
    (m.plan now).withheld = Evaluation.withheldIn (m.evaluations now).values :=
  congrArg Evaluation.withheldIn (Store.evaluations_findings _ _)

section Sound

variable {m} (h : m.Sound)
include h

/-- Of the plan's repairs, those under a key are what the container's evaluation lists. -/
theorem filter_key_directives_plan (id : ContainerId) (kind : DirectiveKind) :
    (m.plan now).directives.filter (fun d => d.key = ⟨id, kind⟩) = m.listed now ⟨id, kind⟩ := by
  have hProper := proper_evaluations now h
  have hOther : ∀ e ∈ (m.evaluations now).values, e.id ≠ id →
      e.directives.filter (fun d => d.key = ⟨id, kind⟩) = [] := by
    intro e he hId
    refine List.filter_eq_nil_iff.2 fun d hd => ?_
    simp [Directive.key, (hProper.regular he).own d hd, hId]
  rw [directives_plan, List.filter_flatMap, listed]
  cases hEvaluation : (m.evaluations now).get? id with
  | none =>
    refine List.flatMap_eq_nil_iff.2 fun e he => hOther e he fun hId => ?_
    rw [← hId, hProper.get?_id he] at hEvaluation
    cases hEvaluation
  | some e =>
    obtain ⟨hRegular, hId⟩ := hProper id e hEvaluation
    have he : e ∈ (m.evaluations now).values := (Table.mem_values_iff _ e).2 ⟨id, hEvaluation⟩
    have hNodup : (m.evaluations now).values.Nodup := List.Nodup.of_map _ hProper.nodup_id
    rw [flatMap_eq_of_alone hNodup he]
    · refine List.filter_congr fun d hd => ?_
      simp [Directive.key, hRegular.own d hd, hId]
    · intro d hd hNe
      refine hOther d hd fun hSame => hNe ?_
      exact List.inj_on_of_nodup_map hProper.nodup_id hd he (hSame.trans hId.symm)

theorem listed_of_mem {e : Evaluation} (he : e ∈ (m.evaluations now).values) (kind : DirectiveKind) :
    m.listed now ⟨e.id, kind⟩ = e.ofKind kind := by
  rw [listed, (proper_evaluations now h).get?_id he]
  rfl

/-- Every repair of the plan is for a container that has to wait for it. -/
theorem exists_waiter_of_mem_directives_plan {d : Directive} (hd : d ∈ (m.plan now).directives)
    (hRepair : d.kind ≠ .close) :
    ∃ e ∈ (m.evaluations now).values, ∃ w, e.waiter? = some w ∧ d.key = w.key := by
  rw [directives_plan] at hd
  obtain ⟨e, he, hOwn⟩ := List.mem_flatMap.1 hd
  have hRegular := (proper_evaluations now h).regular he
  obtain ⟨i, hKind⟩ : ∃ i : Imbalance, d.kind = i.repair := by
    cases hKind : d.kind with
    | close => exact absurd hKind hRepair
    | replicate => exact ⟨.shortage, rfl⟩
    | delete => exact ⟨.surplus, rfl⟩
  have hListed : d ∈ e.ofKind i.repair := List.mem_filter.2 ⟨hOwn, by simp [hKind]⟩
  -- Nobody who does not wait has a repair listed.
  by_contra hNobody
  have hNone : e.ofKind i.repair = [] := by
    refine hRegular.ofKind_eq_nil fun w hWaiter hImbalance => hNobody ⟨e, he, w, hWaiter, ?_⟩
    rw [Directive.key, Waiter.key, hRegular.own d hOwn, Evaluation.container_of_waiter? hWaiter,
      hKind, hImbalance]
  rw [hNone] at hListed
  cases hListed

end Sound

end Manager

end ReplicaUpkeep
