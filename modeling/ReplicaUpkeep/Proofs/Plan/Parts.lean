import ReplicaUpkeep.Evaluation

/-!
# The parts of a plan

An evaluation lists closes, then copies, then deletes, and what it withholds in the same order.  Each
kind of directive comes from one planner only.  This module cuts an evaluation into these three parts
once; what is proved of one kind of directive is proved of its part and needs no other planner.

The parts make no difference between the stages of a container beyond what the planners do: a
container on its way out has three empty parts.
-/

namespace ReplicaUpkeep

/-- The verdict that an evaluation takes into account. -/
def Snapshot.ruling (s : Snapshot) : Option Verdict :=
  if s.container.state = .quasiClosed then some s.verdict else none

/-- The nodes that the directives of a kind go to, in order. -/
def Evaluation.targetsOf (e : Evaluation) (kind : DirectiveKind) : List NodeId :=
  (e.ofKind kind).filterMap Directive.target

/-- The node answers and lives, which is all that a close or a delete asks of it. -/
def NodeLookup.Reaches (lookup : NodeLookup) (n : NodeId) : Prop :=
  ∃ status, lookup n = some status ∧ status.health ≠ .dead

theorem NodeLookup.any_canReceive_iff (lookup : NodeLookup) (n : NodeId) :
    (lookup n).any NodeStatus.canReceive = true ↔ lookup.Reaches n := by
  simp [Reaches, Option.any_eq_true, NodeStatus.canReceive]

instance (lookup : NodeLookup) (n : NodeId) : Decidable (lookup.Reaches n) :=
  decidable_of_iff _ (lookup.any_canReceive_iff n)

/-- The part of an evaluation's plan that holds the directives of a kind. -/
def Snapshot.part (s : Snapshot) (lookup : NodeLookup) : DirectiveKind → Plan
  | .close => Plan.closing lookup s.id (s.closeTargets s.ruling).1 (s.closeTargets s.ruling).2
  | .replicate =>
    if s.container.state.isRepairable && s.capacity.isUnder then
      Plan.copying lookup s s.capacity.missing
    else .empty
  | .delete =>
    if s.container.state.isRepairable && s.capacity.isOver && !s.any .writable then
      Plan.pruning lookup s s.capacity.excess
    else .empty

namespace Plan

/-- All that a plan asks or withholds is of one kind. -/
structure IsOfKind (p : Plan) (kind : DirectiveKind) : Prop where
  directives : ∀ d ∈ p.directives, d.kind = kind
  withheld : ∀ w ∈ p.withheld, w.kind = kind

theorem isOfKind_empty (kind : DirectiveKind) : IsOfKind .empty kind where
  directives := by simp [empty]
  withheld := by simp [empty]

theorem isOfKind_closing (lookup : NodeLookup) (id : ContainerId) (targets : List NodeId)
    (final : Bool) : (closing lookup id targets final).IsOfKind .close where
  directives := by
    intro d hd
    obtain ⟨a, -, rfl⟩ := List.mem_map.1 hd
    rfl
  withheld := by
    intro w hw
    rcases List.mem_append.1 hw with hRefused | hWaiting
    · obtain ⟨n, -, hn⟩ := List.mem_filterMap.1 hRefused
      obtain ⟨reason, -, rfl⟩ := Option.map_eq_some_iff.1 hn
      rfl
    · obtain ⟨a, -, rfl⟩ := List.mem_map.1 hWaiting
      rfl

theorem isOfKind_copying (lookup : NodeLookup) (s : Snapshot) (missing : Nat) :
    (copying lookup s missing).IsOfKind .replicate := by
  have hReplicate : ∀ source, ∀ d ∈ List.replicate missing (Directive.replicate s.id source),
      d.kind = .replicate := by
    intro source d hd
    rw [List.eq_of_mem_replicate hd]
    rfl
  rw [copying]
  split
  · refine ⟨by simp, fun w hw => ?_⟩
    rw [List.eq_of_mem_replicate hw]
  · exact ⟨hReplicate _, by simp⟩
  · exact ⟨hReplicate _, by simp⟩

theorem isOfKind_pruning (lookup : NodeLookup) (s : Snapshot) (excess : Nat) :
    (pruning lookup s excess).IsOfKind .delete where
  directives := by
    intro d hd
    obtain ⟨r, -, rfl⟩ := List.mem_map.1 hd
    rfl
  withheld := by
    intro w hw
    obtain ⟨r, -, rfl⟩ := List.mem_map.1 hw
    rfl

end Plan

namespace Snapshot

variable (s : Snapshot) (lookup : NodeLookup)

theorem isOfKind_part (kind : DirectiveKind) : (s.part lookup kind).IsOfKind kind := by
  cases kind with
  | close => exact Plan.isOfKind_closing _ _ _ _
  | replicate =>
    rw [part]
    split
    · exact Plan.isOfKind_copying _ _ _
    · exact Plan.isOfKind_empty _
  | delete =>
    rw [part]
    split
    · exact Plan.isOfKind_pruning _ _ _
    · exact Plan.isOfKind_empty _

/-- A container on its way out has nothing to close and is not repaired. -/
theorem part_of_isBeingDeleted (h : s.container.state.isBeingDeleted = true) (kind : DirectiveKind) :
    s.part lookup kind = .empty := by
  have hStage : s.container.state = .deleting ∨ s.container.state = .deleted := by
    revert h
    cases s.container.state <;> simp [ContainerState.isBeingDeleted]
  cases kind <;> rcases hStage with hStage | hStage <;>
    simp [part, closeTargets, hStage, ContainerState.isRepairable, Plan.closing, Plan.reachable,
      Plan.empty]

/-- The plan of an evaluation is its three parts, one after the other. -/
theorem plan_of_eq_parts :
    Plan.of lookup s s.capacity s.ruling =
      s.part lookup .close ++ s.part lookup .replicate ++ s.part lookup .delete := by
  rw [Plan.of]
  split
  · rename_i hDeleted
    simp only [s.part_of_isBeingDeleted lookup hDeleted]
    rfl
  · rfl

theorem directives_evaluate :
    (s.evaluate lookup).directives =
      (s.part lookup .close).directives ++ (s.part lookup .replicate).directives ++
        (s.part lookup .delete).directives :=
  congrArg Plan.directives (s.plan_of_eq_parts lookup)

theorem withheld_evaluate :
    (s.evaluate lookup).withheld =
      (s.part lookup .close).withheld ++ (s.part lookup .replicate).withheld ++
        (s.part lookup .delete).withheld :=
  congrArg Plan.withheld (s.plan_of_eq_parts lookup)

/-- Filtering one part by kind keeps all of it or nothing. -/
private theorem filter_kind_part {α : Type} {kindOf : α → DirectiveKind} {l : List α}
    {own : DirectiveKind} (h : ∀ a ∈ l, kindOf a = own) (kind : DirectiveKind) :
    l.filter (fun a => kindOf a = kind) = if own = kind then l else [] := by
  split
  · rename_i heq
    refine List.filter_eq_self.2 fun a ha => ?_
    simp [h a ha, heq]
  · rename_i hne
    refine List.filter_eq_nil_iff.2 fun a ha => ?_
    simp [h a ha, hne]

/-- The directives of a kind are those of its part. -/
theorem ofKind_evaluate (kind : DirectiveKind) :
    (s.evaluate lookup).ofKind kind = (s.part lookup kind).directives := by
  have h := fun own => filter_kind_part (s.isOfKind_part lookup own).directives kind
  rw [Evaluation.ofKind, Plan.ofKind, directives_evaluate, List.filter_append, List.filter_append,
    h, h, h]
  cases kind <;> simp

/-- What is withheld of a kind is what its part withholds. -/
theorem filter_withheld_evaluate (kind : DirectiveKind) :
    (s.evaluate lookup).withheld.filter (fun w => w.kind = kind) =
      (s.part lookup kind).withheld := by
  have h := fun own => filter_kind_part (s.isOfKind_part lookup own).withheld kind
  rw [withheld_evaluate, List.filter_append, List.filter_append, h, h, h]
  cases kind <;> simp

/-- A directive of an evaluation lies in the part of its kind. -/
theorem mem_directives_evaluate (d : Directive) :
    d ∈ (s.evaluate lookup).directives ↔ d ∈ (s.part lookup d.kind).directives := by
  rw [← ofKind_evaluate, Evaluation.ofKind, Plan.ofKind, List.mem_filter]
  simp

end Snapshot

end ReplicaUpkeep
