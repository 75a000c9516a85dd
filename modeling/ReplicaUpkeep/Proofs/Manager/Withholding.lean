import ReplicaUpkeep.Proofs.Audit.Counting
import ReplicaUpkeep.Proofs.Manager.Accounting
import ReplicaUpkeep.Proofs.Manager.Planned
import ReplicaUpkeep.Proofs.Plan.Excess

/-!
# Withheld deletes

A close or a copy is withheld once it is decided on, so that what is asked and what is withheld make up
what is due.  Deletes are not: whoever lists the candidates withholds a delete for every sealed replica
whose node does not answer, before it is known how many are to go.  So the withheld deletes of a container
are counted by the silent nodes and not by the excess, and only the deletes that are asked for keep within
it.

Where nobody writes, each good replica is within reach, silent or on a dead node.  This tells exactly when
the two kinds of deletes together still keep within the excess.  The totals of plans, reports and metrics
are sums over the containers and go wrong with them.
-/

namespace ReplicaUpkeep

namespace Snapshot

/-- The sealed replicas whose nodes do not answer. -/
def unanswered (s : Snapshot) (lookup : NodeLookup) : List Replica :=
  s.replicas.filter fun r => r.state ∈ ReplicaState.sealed ∧ lookup r.node = none

/-- The sealed replicas whose nodes answer and are dead. -/
def stranded (s : Snapshot) (lookup : NodeLookup) : List Replica :=
  s.replicas.filter fun r =>
    r.state ∈ ReplicaState.sealed ∧ lookup r.node ≠ none ∧ ¬ lookup.Reaches r.node

instance (s : Snapshot) : Decidable s.MayDelete :=
  decidable_of_iff _ mayDelete_iff.symm

/-- How many deletes a container has withheld. -/
def withheldDeletes (s : Snapshot) (lookup : NodeLookup) : Nat :=
  if s.MayDelete then (s.unanswered lookup).length else 0

variable (s : Snapshot) (lookup : NodeLookup)

theorem unreachable_eq_unanswered : Plan.unreachable lookup s = s.unanswered lookup := by
  rw [Plan.unreachable, select, List.filter_filter, unanswered]
  refine List.filter_congr fun r _ => ?_
  rw [Bool.eq_iff_iff, Bool.and_eq_true, decide_eq_true_eq, Option.isNone_iff_eq_none,
    Selector.sealed, Selector.selects_inStates_iff, and_comm]

/-- A sealed replica is within reach, or its node is silent, or dead. -/
theorem countP_sealed_eq_add (l : List Replica) :
    l.countP (fun r => r.state ∈ ReplicaState.sealed) =
      l.countP (fun r => r.state ∈ ReplicaState.sealed ∧ lookup.Reaches r.node) +
        l.countP (fun r => r.state ∈ ReplicaState.sealed ∧ lookup r.node = none) +
        l.countP fun r =>
          r.state ∈ ReplicaState.sealed ∧ lookup r.node ≠ none ∧ ¬ lookup.Reaches r.node := by
  have hReached := countP_and_add_countP_and_not (fun r : Replica => r.state ∈ ReplicaState.sealed)
    (fun r => lookup.Reaches r.node) l
  have hSilent := countP_and_add_countP_and_not
    (fun r : Replica => decide (r.state ∈ ReplicaState.sealed) && !decide (lookup.Reaches r.node))
    (fun r => lookup r.node = none) l
  rw [← hReached, ← hSilent, ← Nat.add_assoc]
  refine congrArg₂ (· + ·) (congrArg₂ (· + ·) ?_ ?_) ?_ <;> refine List.countP_congr fun r _ => ?_
  · simp
  · -- A node that is silent is not within reach.
    have hApart : lookup r.node = none → ¬ lookup.Reaches r.node := by
      rintro hNone ⟨status, hStatus, -⟩
      rw [hNone] at hStatus
      cases hStatus
    simp only [Bool.and_eq_true, decide_eq_true_eq, Bool.not_eq_true', decide_eq_false_iff_not]
    exact ⟨fun h => ⟨h.1.1, h.2⟩, fun h => ⟨⟨h.1, hApart h.2⟩, h.2⟩⟩
  · simp only [Bool.and_eq_true, decide_eq_true_eq, Bool.not_eq_true', decide_eq_false_iff_not]
    exact ⟨fun h => ⟨h.1.1, h.2, h.1.2⟩, fun h => ⟨⟨h.1, h.2.2⟩, h.2.1⟩⟩

variable {s}

/-- Where nobody writes, every good replica is sealed. -/
theorem count_good_eq_add (hQuiet : ∀ r ∈ s.replicas, r.state ∉ ReplicaState.writable) :
    s.count .good =
      (s.deletable lookup).length + (s.unanswered lookup).length + (s.stranded lookup).length := by
  have hSealed : s.count .good = s.replicas.countP fun r => r.state ∈ ReplicaState.sealed := by
    rw [count_eq_countP]
    refine List.countP_congr fun r hr => ?_
    rw [Selector.good, Selector.selects_inStates_iff, decide_eq_true_eq]
    exact ⟨ReplicaState.mem_sealed_of_mem_good (hQuiet r hr), ReplicaState.mem_good_of_mem_sealed⟩
  rw [hSealed, countP_sealed_eq_add lookup, List.countP_eq_length_filter,
    List.countP_eq_length_filter, List.countP_eq_length_filter]
  rfl

/-- Whoever has to stay is one of those that may be deleted. -/
theorem spared_le_length_deletable : s.spared lookup ≤ (s.deletable lookup).length := by
  rw [spared]
  split
  · rename_i hWithin
    obtain ⟨⟨r, hr, hHolder⟩, hAll⟩ := hWithin
    exact List.length_pos_of_mem (hAll r hr hHolder)
  · exact Nat.zero_le _

theorem withheldOf_delete (h : s.MayDelete) :
    (s.evaluate lookup).withheldOf .delete =
      (s.unanswered lookup).map fun r => ⟨.delete, some r.node, .registryUnavailable⟩ := by
  obtain ⟨hStage, hQuiet, -⟩ := mayDelete_iff.1 h
  have hOver : s.capacity.isOver = true := decide_eq_true h.excess
  rw [Evaluation.withheldOf_evaluate, part, hStage, hOver, hQuiet, ← unreachable_eq_unanswered]
  rfl

theorem part_delete_of_not_mayDelete (h : ¬ s.MayDelete) : s.part lookup .delete = .empty := by
  rw [mayDelete_iff, Capacity.excess_pos_iff] at h
  rw [part, if_neg]
  simpa [and_assoc, and_comm, and_left_comm] using h

theorem length_withheldOf_delete :
    ((s.evaluate lookup).withheldOf .delete).length = s.withheldDeletes lookup := by
  rw [withheldDeletes]
  split
  · rename_i h
    rw [withheldOf_delete lookup h, List.length_map]
  · rename_i h
    rw [Evaluation.withheldOf_evaluate, part_delete_of_not_mayDelete lookup h]
    rfl

theorem countOf_delete (h : s.MayDelete) :
    (s.evaluate lookup).countOf .delete =
      min (s.count .good - s.factor) ((s.deletable lookup).length - s.spared lookup) := by
  obtain ⟨hStage, hQuiet, -⟩ := mayDelete_iff.1 h
  rw [Evaluation.countOf, Plan.countOf, ← Evaluation.ofKind, ofKind_evaluate,
    directives_part_delete, List.length_map, dueToDelete_eq_chosen hStage hQuiet, length_chosen]
  rfl

/-- What an evaluation asks and withholds where replicas may be deleted. -/
structure WithholdsDeletes (s : Snapshot) (lookup : NodeLookup) : Prop where
  /-- The good replicas have one of three fates. -/
  fates : s.count .good =
    (s.deletable lookup).length + (s.unanswered lookup).length + (s.stranded lookup).length
  asked : (s.evaluate lookup).countOf .delete =
    min (s.count .good - s.factor) ((s.deletable lookup).length - s.spared lookup)
  /-- Every silent node is listed, however many replicas are in excess. -/
  withheld : (s.evaluate lookup).withheldOf .delete =
    (s.unanswered lookup).map fun r => ⟨.delete, some r.node, .registryUnavailable⟩
  /-- Both together are no more than there are good replicas. -/
  bounded : (s.evaluate lookup).countOf .delete +
    ((s.evaluate lookup).withheldOf .delete).length ≤ s.count .good

theorem withholdsDeletes (h : s.MayDelete) : s.WithholdsDeletes lookup := by
  have hFates := count_good_eq_add lookup h.quiet
  have hAsked := countOf_delete lookup h
  have hWithheld := withheldOf_delete lookup h
  refine ⟨hFates, hAsked, hWithheld, ?_⟩
  rw [hAsked, hWithheld, List.length_map]
  omega

/-- Either nothing may be deleted, or no node is silent, or those that cannot be asked to go are as many as
are to be kept. -/
def WithholdsWithinNeed (s : Snapshot) (lookup : NodeLookup) : Prop :=
  s.MayDelete → s.unanswered lookup = [] ∨ s.factor ≤ (s.stranded lookup).length + s.spared lookup

/-- This is exactly when deletes and withheld deletes together keep within the excess. -/
theorem withholdsWithinNeed_iff :
    (s.evaluate lookup).countOf .delete + ((s.evaluate lookup).withheldOf .delete).length ≤
        s.count .good - s.factor ↔
      s.WithholdsWithinNeed lookup := by
  by_cases hMay : s.MayDelete
  · have hWithholds := withholdsDeletes lookup hMay
    have hFates := hWithholds.fates
    have hSpared := spared_le_length_deletable (s := s) lookup
    have hExcess := hMay.excess
    have hNeed : s.WithholdsWithinNeed lookup ↔
        (s.unanswered lookup).length = 0 ∨ s.factor ≤ (s.stranded lookup).length + s.spared lookup := by
      rw [List.length_eq_zero_iff]
      exact ⟨fun h => h hMay, fun h _ => h⟩
    rw [hNeed, hWithholds.asked, hWithholds.withheld, List.length_map]
    omega
  · have hNone := part_delete_of_not_mayDelete lookup hMay
    rw [Evaluation.countOf, Plan.countOf, ← Evaluation.ofKind, ofKind_evaluate,
      Evaluation.withheldOf_evaluate, hNone]
    exact ⟨fun _ h => absurd h hMay, fun _ => Nat.zero_le _⟩

end Snapshot

/-! ## Totals -/

namespace Evaluation

/-- How many directives of a kind are withheld in all of a list. -/
def withheldOfIn (es : List Evaluation) (kind : DirectiveKind) : Nat :=
  total (es.map fun e => (e.withheldOf kind).length)

/-- What is withheld is of one of three kinds. -/
theorem length_withheld_eq_add (e : Evaluation) :
    e.withheld.length = (e.withheldOf .close).length + (e.withheldOf .replicate).length +
      (e.withheldOf .delete).length := by
  simp only [withheldOf]
  induction e.withheld with
  | nil => rfl
  | cons w rest ih =>
    cases hKind : w.kind <;>
      simp only [List.filter_cons, hKind, List.length_cons, reduceCtorEq, decide_true, decide_false,
        if_true, Bool.false_eq_true, if_false] <;> omega

theorem withheldIn_eq_add (es : List Evaluation) :
    withheldIn es =
      withheldOfIn es .close + withheldOfIn es .replicate + withheldOfIn es .delete := by
  induction es with
  | nil => rfl
  | cons e rest ih =>
    have hOwn := e.length_withheld_eq_add
    simp only [withheldIn, withheldOfIn, List.map_cons, total] at ih ⊢
    omega

end Evaluation

namespace Snapshot

variable (s : Snapshot) (lookup : NodeLookup)

/-- No more copies are withheld than are missing. -/
theorem length_withheldOf_replicate_le :
    ((s.evaluate lookup).withheldOf .replicate).length ≤ (s.evaluate lookup).needed .shortage := by
  rw [Evaluation.withheldOf_evaluate, Evaluation.needed]
  cases hStage : s.container.state.isRepairable with
  | false =>
    rw [s.part_of_not_isRepairable lookup hStage (by decide)]
    exact Nat.zero_le _
  | true =>
    have hCopies := (s.disposes_part_replicate lookup hStage).length_add_length
    rw [if_pos (show (s.evaluate lookup).isRepairable = true from hStage)]
    change _ ≤ s.capacity.missing
    omega

theorem needed_surplus {s : Snapshot} (h : s.MayDelete) :
    (s.evaluate lookup).needed .surplus = s.count .good - s.factor :=
  if_pos (mayDelete_iff.1 h).1

variable {s}

theorem withheldDeletes_le_needed (h : s.WithholdsWithinNeed lookup) :
    s.withheldDeletes lookup ≤ (s.evaluate lookup).needed .surplus := by
  by_cases hMay : s.MayDelete
  · have hWithin := (withholdsWithinNeed_iff lookup).2 h
    rw [length_withheldOf_delete] at hWithin
    rw [needed_surplus lookup hMay]
    omega
  · rw [withheldDeletes, if_neg hMay]
    exact Nat.zero_le _

end Snapshot

namespace Manager

/-- How many repairs of a kind the containers need together. -/
def neededInAll (m : Manager) (now : Moment) (i : Imbalance) : Nat :=
  total ((m.evaluations now).values.map fun e => e.needed i)

/-- How many directives of a kind are withheld from the containers together. -/
def withheldInAll (m : Manager) (now : Moment) (kind : DirectiveKind) : Nat :=
  Evaluation.withheldOfIn (m.evaluations now).values kind

/-- What is counted as withheld in plans, reports and metrics. -/
structure CountsWithheld (m : Manager) (now : Moment) : Prop where
  plan : (m.plan now).withheld =
    m.withheldInAll now .close + m.withheldInAll now .replicate + m.withheldInAll now .delete
  report : (m.cycle now).1.withheld = (m.plan now).withheld
  counter : (m.cycle now).2.metrics.counter .withheld =
    m.metrics.counter .withheld + UInt64.ofNat (m.plan now).withheld
  copies : m.withheldInAll now .replicate ≤ m.neededInAll now .shortage
  /-- Every silent node of a container with replicas in excess is counted. -/
  deletes : m.withheldInAll now .delete =
    total (m.store.snapshots.map fun s => s.withheldDeletes (m.lookup now))
  /-- The withheld deletes are needed if they are so for each container. -/
  within : (∀ s ∈ m.store.snapshots, s.WithholdsWithinNeed (m.lookup now)) →
    m.withheldInAll now .delete ≤ m.neededInAll now .surplus

variable (m : Manager) (now : Moment)

theorem values_evaluations :
    (m.evaluations now).values = m.store.snapshots.map fun s => s.evaluate (m.lookup now) := by
  simp only [evaluations, Store.snapshots, Table.values, Table.map, List.map_map]
  rfl

theorem countsWithheld : m.CountsWithheld now := by
  have hDeletes : m.withheldInAll now .delete =
      total (m.store.snapshots.map fun s => s.withheldDeletes (m.lookup now)) := by
    rw [withheldInAll, Evaluation.withheldOfIn, values_evaluations, List.map_map]
    exact congrArg total
      (List.map_congr_left fun s _ => Snapshot.length_withheldOf_delete (m.lookup now))
  have hReport : (m.cycle now).1.withheld = (m.plan now).withheld := (m.withheld_plan now).symm
  refine {
    plan := (m.withheld_plan now).trans (Evaluation.withheldIn_eq_add _)
    report := hReport
    counter := ?_
    copies := ?_
    deletes := hDeletes
    within := fun hEach => ?_ }
  · rw [← hReport]
    exact m.counter_cycle now fun hFailures => by cases hFailures
  · rw [withheldInAll, Evaluation.withheldOfIn, neededInAll, values_evaluations, List.map_map,
      List.map_map]
    exact total_map_le fun s _ => s.length_withheldOf_replicate_le (m.lookup now)
  · rw [hDeletes, neededInAll, values_evaluations, List.map_map]
    exact total_map_le fun s hs => Snapshot.withheldDeletes_le_needed (m.lookup now) (hEach s hs)

end Manager

/-- Withheld deletes are counted by silent nodes, not by what is to go.  Deletes and withheld deletes of a
container together keep within its excess exactly if nothing may be deleted, or every node of a sealed
replica answers, or the replicas on dead nodes, and the one holder of the highest sequence that has to stay
where it could go, are as many as are to be kept.  Where replicas may be deleted, the deletes that are asked
for keep within the excess and one more is withheld for every silent node; elsewhere there is neither.  The
totals of plans, reports and metrics are the sums of this over all containers. -/
theorem withheld_deletes_counted (s : Snapshot) (lookup : NodeLookup) (m : Manager) (now : Moment) :
    ((s.evaluate lookup).countOf .delete + ((s.evaluate lookup).withheldOf .delete).length ≤
        s.count .good - s.factor ↔ s.WithholdsWithinNeed lookup) ∧
      (s.MayDelete → s.WithholdsDeletes lookup) ∧
      (¬ s.MayDelete → (s.evaluate lookup).ofKind .delete = [] ∧
        (s.evaluate lookup).withheldOf .delete = []) ∧
      m.CountsWithheld now := by
  refine ⟨Snapshot.withholdsWithinNeed_iff lookup, Snapshot.withholdsDeletes lookup, fun h => ?_,
    m.countsWithheld now⟩
  rw [Snapshot.ofKind_evaluate, Evaluation.withheldOf_evaluate,
    Snapshot.part_delete_of_not_mayDelete lookup h]
  exact ⟨rfl, rfl⟩

/-- Two of four good replicas are in excess.  Of the four nodes one is dead and one is silent, and one
replica has to stay; so one goes, one is withheld, and that is within the excess. -/
theorem withheld_deletes_counted_of_four :
    let s := Snapshot.of ⟨⟨1⟩, .closed, 2, 10⟩
      [⟨"a", .closed, 10, some "a", false⟩, ⟨"b", .closed, 9, some "b", false⟩,
        ⟨"c", .closed, 9, some "c", false⟩, ⟨"d", .closed, 9, some "d", false⟩]
    let lookup : NodeLookup := fun n =>
      if n = "c" then none
      else some ⟨.inService, if n = "d" then .dead else .healthy, none⟩
    let now : Moment := ⟨⟨⟨2024, 1, 1, 0, 0, 0, 0⟩, by decide⟩, 1⟩
    let m : Manager := {
      config := .default, registry := .empty, metrics := .empty, outbox := .ofCapacity 1
      queue := .empty
      store := Store.empty.run [.add s.container] }
    s.MayDelete ∧ (s.evaluate lookup).ofKind .delete = [.delete ⟨1⟩ "b"] ∧
      (s.evaluate lookup).withheldOf .delete = [⟨.delete, some "c", .registryUnavailable⟩] ∧
      (s.evaluate lookup).countOf .delete + ((s.evaluate lookup).withheldOf .delete).length ≤ 2 ∧
      m.neededInAll now .shortage = 2 ∧ (m.cycle now).1.withheld = (m.plan now).withheld := by
  intro s lookup now m
  have hMay : s.MayDelete := ⟨Or.inr rfl, by decide, by decide⟩
  obtain ⟨hWithin, hWithholds, -, hCounts⟩ := withheld_deletes_counted s lookup m now
  exact ⟨hMay, by decide, (hWithholds hMay).withheld, hWithin.2 fun _ => Or.inr (by decide),
    by decide +kernel, hCounts.report⟩

/-- One of two good replicas is in excess and neither node answers.  Two deletes are withheld, and all
totals say two where one repair is needed. -/
theorem withheld_deletes_exceed_excess :
    let s := Snapshot.of ⟨⟨1⟩, .closed, 1, 10⟩
      [⟨"a", .closed, 10, some "a", false⟩, ⟨"b", .closed, 9, some "b", false⟩]
    let lookup : NodeLookup := fun _ => none
    let now : Moment := ⟨⟨⟨2024, 1, 1, 0, 0, 0, 0⟩, by decide⟩, 1⟩
    let m : Manager := {
      config := .default, registry := .empty, metrics := .empty, outbox := .ofCapacity 1
      queue := .empty
      store := Store.empty.run [.add s.container,
        .report ⟨⟨1⟩, "a", .closed, some 10, some "a", false⟩,
        .report ⟨⟨1⟩, "b", .closed, some 9, some "b", false⟩] }
    s.container.state = .closed ∧ (s.replicas.map Replica.node).Nodup ∧
      ¬ (s.evaluate lookup).countOf .delete + ((s.evaluate lookup).withheldOf .delete).length ≤
        s.count .good - s.factor ∧
      m.neededInAll now .shortage + m.neededInAll now .surplus = 1 ∧
      (m.plan now).withheld = 2 ∧ (m.cycle now).1.withheld = 2 ∧
      (m.cycle now).2.metrics.counter .withheld = 2 := by
  decide +kernel

end ReplicaUpkeep
