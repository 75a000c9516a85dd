import Mathlib.Data.List.Perm.Basic
import ReplicaUpkeep.Proofs.Image.Building
import ReplicaUpkeep.Proofs.Manager.Planned
import ReplicaUpkeep.Proofs.Queue.Turns

/-!
# The first round and the plan

A new manager has an empty queue, and nothing is in flight.  So everybody who has to wait
stands in the line after the first evaluations, and if one round may repair them all, it attempts just
what the plan for the cluster lists: the closes as they are, and the repairs in the order of the line.
-/

namespace ReplicaUpkeep

theorem flatMap_filterMap {α β γ : Type} (l : List α) (f : α → Option β) (g : β → List γ) :
    (l.filterMap f).flatMap g = l.flatMap fun a => (f a).elim [] g := by
  induction l with
  | nil => rfl
  | cons a rest ih => cases hf : f a <;> simp [hf, ih]

namespace Manager

section New

variable {m : Manager} (h : m.Sound) (hNew : m.queue = .empty) (now : Moment)
include h hNew

/-- Everybody who has to wait stands in the line. -/
theorem perm_line_of_new :
    (m.settledQueue now).line.toList.Perm (waitersOf (m.evaluations now).values) := by
  rw [line_settledQueue now h (by rw [hNew]; rfl), hNew]
  exact WaitingLine.perm_toList_foldl_follow (proper_evaluations now h).nodup_id
    WaitingLine.sound_empty (WaitingLine.fits_empty _)

/-- Nothing is in flight for anybody who was evaluated. -/
theorem inflightAt_of_new {e : Evaluation} (he : e ∈ (m.evaluations now).values) (i : Imbalance) :
    (m.settledQueue now).inflightAt e.id i.repair now.steady = 0 := by
  rw [inflightAt_settledQueue now h ((proper_evaluations now h).get?_id he) i, hNew]
  exact Nat.zero_min _

/-- So all that is listed for a container is attempted for its waiter. -/
theorem attempt_of_new {e : Evaluation} (he : e ∈ (m.evaluations now).values) {w : Waiter}
    (hWaiter : e.waiter? = some w) : m.attempt now w = e.ofKind w.imbalance.repair := by
  rw [attempt, Dispatch.attempt, Dispatch.wanted, Evaluation.container_of_waiter? hWaiter,
    inflightAt_of_new h hNew now he, (proper_evaluations now h).get?_id he]
  rfl

/-- What is attempted for all who have to wait are all repairs that are listed. -/
theorem flatMap_attempt_of_new :
    (waitersOf (m.evaluations now).values).flatMap (m.attempt now) =
      (m.evaluations now).values.flatMap fun e => e.ofKind .replicate ++ e.ofKind .delete := by
  rw [waitersOf, flatMap_filterMap]
  refine List.flatMap_congr fun e he => ?_
  rw [((proper_evaluations now h).regular he).repairs_eq]
  cases hWaiter : e.waiter? with
  | none => rfl
  | some w => exact attempt_of_new h hNew now he hWaiter

variable (hRepairs : (m.evaluations now).values.countP Evaluation.isOffBalance ≤
  m.config.maxRepairs.toNat)
include hRepairs

/-- If there is a place for everybody, the first batch is the whole line. -/
theorem batch_of_new : m.batch now = (m.settledQueue now).line.toList := by
  rw [← length_waitersOf, ← (perm_line_of_new h hNew now).length_eq] at hRepairs
  exact List.take_of_length_le hRepairs

/-- Then the first round attempts what the plan lists. -/
theorem perm_attempts_of_new : (m.attempts now).Perm (m.plan now).directives := by
  have hLine := (perm_line_of_new h hNew now).flatMap_right (m.attempt now)
  rw [flatMap_attempt_of_new h hNew now, ← batch_of_new h hNew now hRepairs] at hLine
  -- Container by container the plan has closes first; all closes together go before all repairs.
  have hParts : (m.plan now).directives = (m.evaluations now).values.flatMap
      fun e => e.ofKind .close ++ (e.ofKind .replicate ++ e.ofKind .delete) := by
    rw [directives_plan]
    refine List.flatMap_congr fun e he => ?_
    obtain ⟨id, hEntry⟩ := (Table.mem_values_iff _ e).1 he
    rw [get?_evaluations, Option.map_eq_some_iff] at hEntry
    obtain ⟨entry, -, rfl⟩ := hEntry
    rw [Snapshot.directives_evaluate, Snapshot.ofKind_evaluate, Snapshot.ofKind_evaluate,
      Snapshot.ofKind_evaluate, List.append_assoc]
  rw [hParts]
  exact (hLine.append_left _).trans (List.flatMap_append_perm _ _ _)

/-- Nothing is held back in the first round. -/
theorem suppressed_of_new : (m.cycle now).1.suppressed = 0 := by
  rw [suppressed_cycle now h]
  refine Dispatch.heldBackIn_eq_zero fun w hw => ?_
  rw [batch_of_new h hNew now hRepairs, (perm_line_of_new h hNew now).mem_iff,
    mem_waitersOf_iff] at hw
  obtain ⟨e, he, hWaiter⟩ := hw
  rw [Dispatch.heldBack, Evaluation.container_of_waiter? hWaiter, inflightAt_of_new h hNew now he,
    Nat.zero_min]

/-- If there is room for the plan, the first round sends all that it attempts. -/
theorem sentIn_of_new (hRoom : (m.plan now).directives.length ≤ m.outbox.room) :
    m.sentIn now = m.attempts now := by
  rw [← (perm_attempts_of_new h hNew now hRepairs).length_eq] at hRoom
  exact List.take_of_length_le hRoom

end New

end Manager

/-- The plan and the first round agree.  If the outbox of a manager that is made anew has room for all
directives of the plan, and one round may repair all containers off balance, then the first round sends
just the directives of the plan, each as often as the plan has it.  Its report counts what the plan
counts; nothing fails, nothing is dropped and nothing is held back.  And the round does come to its end if
the clock can hold the deadline of the repairs. -/
theorem first_round_sends_plan (image : ClusterImage) (parts : Store × Registry) (config : Config)
    (now : Moment) (hBuild : image.build = .ok parts)
    (hCapacity : (ClusterPlan.of parts now.wall).directives.length ≤ config.capacity.toNat)
    (hRepairs : (parts.1.findings (parts.2.lookup? now.wall)).evaluations.countP
      Evaluation.isOffBalance ≤ config.maxRepairs.toNat) :
    let plan := ClusterPlan.of parts now.wall
    let m := Manager.of config parts.1 parts.2
    let report := (m.cycle now).1
    (m.cycle now).2.outbox.waiting.Perm plan.directives ∧
      report.evaluated = plan.containers ∧
      report.closes = Plan.countOf plan.directives .close ∧
      report.replicates = Plan.countOf plan.directives .replicate ∧
      report.deletes = Plan.countOf plan.directives .delete ∧
      report.withheld = plan.withheld ∧
      report.failed = 0 ∧ report.dropped = 0 ∧ report.suppressed = 0 ∧
      (m.canStamp now = true → m.cycle? now = some (m.cycle now)) := by
  intro plan m report
  have hKeyed : parts.1.Keyed := ClusterImage.keyed_build hBuild
  have hSound : m.Sound := Manager.sound_of config hKeyed parts.2
  have hEs : (parts.1.findings (parts.2.lookup? now.wall)).evaluations = (m.evaluations now).values :=
    Store.evaluations_findings _ _
  rw [hEs] at hRepairs
  have hPerm : (m.attempts now).Perm plan.directives :=
    Manager.perm_attempts_of_new hSound rfl now hRepairs
  have hRoom : (m.plan now).directives.length ≤ m.outbox.room :=
    Nat.le_trans hCapacity (Nat.le_max_left _ _)
  have hSent : m.sentIn now = m.attempts now :=
    Manager.sentIn_of_new hSound rfl now hRepairs hRoom
  have hCount : ∀ kind, Plan.countOf
      (m.dispatchRound now (m.evaluations now) (m.settledQueue now)).accepted kind =
        Plan.countOf plan.directives kind := by
    intro kind
    rw [Manager.sent_by_kind now hSound, hSent]
    exact (hPerm.filter _).length_eq
  have hRegular : ∀ e ∈ (m.evaluations now).values, e.Regular := fun _ he =>
    (Manager.proper_evaluations now hSound).regular he
  refine ⟨?_, (Manager.containers_plan m now).symm, hCount _, hCount _, hCount _,
    (Manager.withheld_plan m now).symm, ?_, ?_,
    Manager.suppressed_of_new hSound rfl now hRepairs, ?_⟩
  · rw [Manager.waiting_cycle now hSound, hSent]
    exact hPerm
  · exact congrArg Prod.fst (RepairQueue.settleAll_of_open hRegular rfl)
  · rw [Manager.dropped_cycle now hSound, hSent, Nat.sub_self]
  · exact m.cycle?_of_canStamp now

/-- A writer is told to close, a copy is made of one container and two replicas of another go. -/
theorem first_round_sends_plan_of_three :
    let day : Timestamp := ⟨⟨2024, 1, 1, 0, 0, 0, 0⟩, by decide⟩
    let now : Moment := ⟨day, 0⟩
    let status : NodeStatus := ⟨.inService, .healthy, none⟩
    let image : ClusterImage := {
      nodes := [⟨"a", "", status⟩, ⟨"b", "", status⟩, ⟨"c", "", status⟩]
      containers := [⟨⟨1⟩, .quasiClosed, 2, 0⟩, ⟨⟨2⟩, .closed, 2, 0⟩, ⟨⟨3⟩, .closed, 1, 0⟩]
      reports := [
        ⟨⟨1⟩, "a", .opened, some 4, some "a", false⟩, ⟨⟨1⟩, "b", .quasiClosed, some 4, some "b", false⟩,
        ⟨⟨2⟩, "a", .closed, some 7, some "a", false⟩,
        ⟨⟨3⟩, "a", .closed, some 9, some "a", false⟩, ⟨⟨3⟩, "b", .closed, some 9, some "a", false⟩,
        ⟨⟨3⟩, "c", .closed, some 9, some "a", false⟩] }
    ∃ parts, image.build = .ok parts ∧
      (ClusterPlan.of parts day).directives =
        [.close ⟨1⟩ "a", .replicate ⟨2⟩ (some "a"), .delete ⟨3⟩ "b", .delete ⟨3⟩ "c"] ∧
      (((Manager.of .default parts.1 parts.2).cycle now).2.outbox.waiting).Perm
        (ClusterPlan.of parts day).directives ∧
      ((Manager.of .default parts.1 parts.2).cycle now).1.deletes = 2 := by
  intro day now status image
  have hParts : (image.build.toOption.map fun parts =>
      ((ClusterPlan.of parts day).directives,
        (parts.1.findings (parts.2.lookup? day)).evaluations.countP Evaluation.isOffBalance)) =
      some ([.close ⟨1⟩ "a", .replicate ⟨2⟩ (some "a"), .delete ⟨3⟩ "b", .delete ⟨3⟩ "c"], 2) := by
    decide +kernel
  cases hBuild : image.build with
  | error fault =>
    rw [hBuild] at hParts
    cases hParts
  | ok parts =>
    rw [hBuild] at hParts
    simp only [Except.toOption, Option.map_some, Option.some.injEq, Prod.mk.injEq] at hParts
    obtain ⟨hDirectives, hOff⟩ := hParts
    have hCapacity : (ClusterPlan.of parts now.wall).directives.length ≤
        Config.default.capacity.toNat := by
      rw [hDirectives]
      decide
    have hRepairs : (parts.1.findings (parts.2.lookup? now.wall)).evaluations.countP
        Evaluation.isOffBalance ≤ Config.default.maxRepairs.toNat := by
      rw [hOff]
      decide
    obtain ⟨hPerm, -, -, -, hDeletes, -⟩ :=
      first_round_sends_plan image parts .default now hBuild hCapacity hRepairs
    refine ⟨parts, rfl, hDirectives, hPerm, ?_⟩
    rw [hDeletes, hDirectives]
    decide

end ReplicaUpkeep
