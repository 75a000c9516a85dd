import ReplicaUpkeep.Proofs.Plan.Need

/-!
# The account of a plan

Capacity is conserved by an evaluation.  Every live replica counts as good or as unhealthy, and every
good replica that is missing is accounted for: a copy of it is asked for, or the copy is withheld.
All copies of one evaluation have the same fate, since one search for sources decides about them.

The two repairs exclude each other, as a container never has too few and too many good replicas at
once.  Where repair does not apply there is neither; closes are no repair and may be there at any
stage but the last two.
-/

namespace ReplicaUpkeep

/-- What is withheld of a kind, in order. -/
def Evaluation.withheldOf (e : Evaluation) (kind : DirectiveKind) : List Withheld :=
  e.withheld.filter (fun w => w.kind = kind)

/-- Capacity is repaired in two stages of a container's life. -/
theorem ContainerState.isRepairable_iff (c : ContainerState) :
    c.isRepairable = true ↔ c = .quasiClosed ∨ c = .closed := by
  cases c <;> decide

namespace Capacity

/-- No capacity lacks replicas and has too many of them. -/
theorem missing_eq_zero_or_excess_eq_zero (c : Capacity) : c.missing = 0 ∨ c.excess = 0 := by
  unfold missing excess
  omega

theorem missing_eq_zero_of_not_isUnder {c : Capacity} (h : c.isUnder = false) : c.missing = 0 := by
  simp only [isUnder, decide_eq_false_iff_not] at h
  unfold missing
  omega

end Capacity

namespace Snapshot

variable (s : Snapshot)

/-- A live replica is good exactly if it is not unhealthy. -/
theorem selects_unhealthy_eq_not_selects_good {r : Replica} (hr : r ∈ s.replicas) :
    Selector.unhealthy.selects r = !Selector.good.selects r := by
  have hLive : r.state ≠ .deleted := s.live r hr
  rw [Selector.unhealthy, Selector.good, Selector.selects, Selector.selects]
  revert hLive
  cases r.state <;> decide

/-- Good and unhealthy replicas are all live replicas, each counted once. -/
theorem count_good_add_count_unhealthy : s.count .good + s.count .unhealthy = s.size := by
  have hUnhealthy : s.count .unhealthy = s.replicas.countP (fun r => ¬Selector.good.selects r) := by
    rw [count_eq_countP]
    refine List.countP_congr fun r hr => ?_
    simp [s.selects_unhealthy_eq_not_selects_good hr]
  rw [hUnhealthy, count_eq_countP]
  exact (List.length_eq_countP_add_countP _).symm

end Snapshot

namespace Plan

/-- A plan disposes of a number of copies when it asks for all of them from one source, or withholds
all of them for one reason. -/
inductive Disposes (id : ContainerId) (copies : Nat) (p : Plan) : Prop where
  | asked (source : Option NodeId)
      (hAsked : p.directives = List.replicate copies (.replicate id source))
      (hWithheld : p.withheld = [])
  | refused (reason : WithholdReason)
      (hAsked : p.directives = [])
      (hWithheld : p.withheld = List.replicate copies ⟨.replicate, none, reason⟩)

/-- The search for sources decides about all copies at once. -/
theorem disposes_copying (lookup : NodeLookup) (s : Snapshot) (missing : Nat) :
    (copying lookup s missing).Disposes s.id missing := by
  rw [copying]
  split
  · exact .refused _ rfl rfl
  · exact .asked _ rfl rfl
  · exact .asked _ rfl rfl

/-- Nothing at all is a disposal of no copies. -/
theorem disposes_empty (id : ContainerId) : Plan.empty.Disposes id 0 :=
  .asked none rfl rfl

/-- No copy is counted twice and none is lost. -/
theorem Disposes.length_add_length {id : ContainerId} {copies : Nat} {p : Plan}
    (h : p.Disposes id copies) : p.directives.length + p.withheld.length = copies := by
  cases h with
  | asked source hAsked hWithheld => simp [hAsked, hWithheld]
  | refused reason hAsked hWithheld => simp [hAsked, hWithheld]

/-- The copies have one source, or one reason not to be asked for. -/
theorem Disposes.alike {id : ContainerId} {copies : Nat} {p : Plan} (h : p.Disposes id copies) :
    ((∃ source, ∀ d ∈ p.directives, d.source = source) ∧ p.withheld = []) ∨
      (p.directives = [] ∧ ∃ reason, ∀ w ∈ p.withheld, w.reason = reason) := by
  cases h with
  | asked source hAsked hWithheld =>
    refine Or.inl ⟨⟨source, fun d hd => ?_⟩, hWithheld⟩
    rw [hAsked] at hd
    rw [List.eq_of_mem_replicate hd]
    rfl
  | refused reason hAsked hWithheld =>
    refine Or.inr ⟨hAsked, reason, fun w hw => ?_⟩
    rw [hWithheld] at hw
    rw [List.eq_of_mem_replicate hw]

end Plan

namespace Evaluation

/-- An evaluation in which capacity is conserved. -/
structure Conserves (e : Evaluation) : Prop where
  /-- Live replicas are good or unhealthy. -/
  live : e.capacity.good + e.capacity.unhealthy = e.capacity.total
  oneSided : e.capacity.missing = 0 ∨ e.capacity.excess = 0
  /-- Copies asked for and copies withheld make up exactly for what is missing. -/
  copies : e.container.state = .quasiClosed ∨ e.container.state = .closed →
    e.countOf .replicate + (e.withheldOf .replicate).length =
      e.container.factor.toNat - e.capacity.good
  alike : e.container.state = .quasiClosed ∨ e.container.state = .closed →
    ((∃ source, ∀ d ∈ e.ofKind .replicate, d.source = source) ∧ e.withheldOf .replicate = []) ∨
      (e.ofKind .replicate = [] ∧ ∃ reason, ∀ w ∈ e.withheldOf .replicate, w.reason = reason)
  /-- Neither copies nor deletes are asked for or withheld at the other stages. -/
  unrepaired : ¬(e.container.state = .quasiClosed ∨ e.container.state = .closed) →
    ∀ kind, kind ≠ .close → e.ofKind kind = [] ∧ e.withheldOf kind = []
  ordered : e.directives = e.ofKind .close ++ e.ofKind .replicate ++ e.ofKind .delete
  /-- Copies and deletes are never both present. -/
  exclusive : e.ofKind .replicate = [] ∨ e.ofKind .delete = []

theorem withheldOf_evaluate (s : Snapshot) (lookup : NodeLookup) (kind : DirectiveKind) :
    (s.evaluate lookup).withheldOf kind = (s.part lookup kind).withheld :=
  s.filter_withheld_evaluate lookup kind

end Evaluation

namespace Snapshot

variable (s : Snapshot) (lookup : NodeLookup)

/-- At a repairable stage the plan disposes of exactly the missing copies. -/
theorem disposes_part_replicate (hStage : s.container.state.isRepairable = true) :
    (s.part lookup .replicate).Disposes s.id s.capacity.missing := by
  rw [part, hStage, Bool.true_and]
  split
  · exact Plan.disposes_copying lookup s s.capacity.missing
  · rename_i hEnough
    rw [Capacity.missing_eq_zero_of_not_isUnder (Bool.eq_false_iff.2 hEnough)]
    exact Plan.disposes_empty s.id

/-- Repair does not start at a stage that is not repairable. -/
theorem part_of_not_isRepairable (hStage : s.container.state.isRepairable = false)
    {kind : DirectiveKind} (hRepair : kind ≠ .close) : s.part lookup kind = .empty := by
  cases kind with
  | close => exact absurd rfl hRepair
  | replicate => simp [part, hStage]
  | delete => simp [part, hStage]

/-- One of the two repairs has nothing to do, neither to ask for nor to withhold. -/
theorem part_replicate_eq_empty_or_part_delete_eq_empty :
    s.part lookup .replicate = .empty ∨ s.part lookup .delete = .empty := by
  cases hUnder : s.capacity.isUnder with
  | false => exact Or.inl (by simp [part, hUnder])
  | true => exact Or.inr (by simp [part, Capacity.isOver_eq_false_of_isUnder hUnder])

end Snapshot

/-- Every evaluation conserves capacity, whatever the state of the container and whatever the registry
answers. -/
theorem plan_conserves_capacity (s : Snapshot) (lookup : NodeLookup) :
    (s.evaluate lookup).Conserves where
  live := s.count_good_add_count_unhealthy
  oneSided := s.capacity.missing_eq_zero_or_excess_eq_zero
  copies := by
    intro hStage
    have hCopies := s.disposes_part_replicate lookup ((ContainerState.isRepairable_iff _).2 hStage)
    rw [Evaluation.countOf, Plan.countOf, ← Evaluation.ofKind, Snapshot.ofKind_evaluate,
      Evaluation.withheldOf_evaluate]
    exact hCopies.length_add_length
  alike := by
    intro hStage
    have hCopies := s.disposes_part_replicate lookup ((ContainerState.isRepairable_iff _).2 hStage)
    rw [Snapshot.ofKind_evaluate, Evaluation.withheldOf_evaluate]
    exact hCopies.alike
  unrepaired := by
    intro hStage kind hRepair
    have hUnrepaired : s.container.state.isRepairable = false :=
      Bool.eq_false_iff.2 fun h => hStage ((ContainerState.isRepairable_iff _).1 h)
    rw [Snapshot.ofKind_evaluate, Evaluation.withheldOf_evaluate,
      s.part_of_not_isRepairable lookup hUnrepaired hRepair]
    exact ⟨rfl, rfl⟩
  ordered := by
    rw [Snapshot.directives_evaluate, Snapshot.ofKind_evaluate, Snapshot.ofKind_evaluate, Snapshot.ofKind_evaluate]
  exclusive := by
    rw [Snapshot.ofKind_evaluate, Snapshot.ofKind_evaluate]
    exact (s.part_replicate_eq_empty_or_part_delete_eq_empty lookup).imp
      (congrArg Plan.directives) (congrArg Plan.directives)

/-- Two copies are missing.  As long as the only node does not answer both are withheld, and then both are
asked for from it. -/
theorem plan_conserves_capacity_of_one :
    let s := Snapshot.of ⟨⟨1⟩, .closed, 3, 0⟩ [⟨"a", .closed, 7, some "a", false⟩]
    let silent : NodeLookup := fun _ => none
    let answering : NodeLookup := fun _ => some ⟨.inService, .healthy, none⟩
    ((s.evaluate silent).countOf .replicate = 0 ∧
        ((s.evaluate silent).withheldOf .replicate).length = 2) ∧
      ((s.evaluate answering).countOf .replicate = 2 ∧
        ((s.evaluate answering).withheldOf .replicate).length = 0) := by
  intro s silent answering
  have hSilent : (s.evaluate silent).countOf .replicate = 0 := by decide
  have hAnswering : (s.evaluate answering).countOf .replicate = 2 := by decide
  have hMissing : ∀ lookup, (s.evaluate lookup).countOf .replicate +
      ((s.evaluate lookup).withheldOf .replicate).length = 2 := fun lookup =>
    (plan_conserves_capacity s lookup).copies (.inr rfl)
  have hBefore := hMissing silent
  have hAfter := hMissing answering
  omega

end ReplicaUpkeep
