import ReplicaUpkeep.Proofs.Plan.Conservation
import ReplicaUpkeep.Proofs.Plan.Usability

/-!
# The best tier of sources

There are three kinds of replicas to copy from, and a worse kind is looked at only where no usable
replica of a better one is left.  All three are told apart by one pass over the snapshot here, in the
order of their worth; the planner narrows down the good ones step by step and looks at the unhealthy ones
last.  That both find the same replicas is what makes a copy that is asked for trustworthy.
-/

namespace ReplicaUpkeep

/-- The node answers and may serve as the source of a copy. -/
def NodeLookup.Serves (lookup : NodeLookup) (n : NodeId) : Prop :=
  ∃ status, lookup n = some status ∧ status.Keeps

theorem NodeLookup.serves_iff (lookup : NodeLookup) (r : Replica) :
    lookup.Serves r.node ↔ Plan.isUsableSource lookup r = true :=
  (Plan.isUsableSource_iff lookup r).symm

instance (lookup : NodeLookup) (r : Replica) : Decidable (lookup.Serves r.node) :=
  decidable_of_iff _ (lookup.serves_iff r).symm

namespace Snapshot

/-- The replicas to copy from: the usable ones of the best kind that has any. -/
def sources (s : Snapshot) (lookup : NodeLookup) : List Replica :=
  let usable := s.replicas.filter fun r => lookup.Serves r.node
  let filled := usable.filter fun r => r.state ∈ ReplicaState.sealed ∧ r.isEmpty = false
  let good := usable.filter fun r => r.state ∈ ReplicaState.good
  let latest := usable.filter fun r => r.state = .unhealthy ∧ r.sequence = s.maxSequence
  if filled ≠ [] then filled else if good ≠ [] then good else latest

/-- A replica that might have been copied from lies on a node that does not answer. -/
def SourceUnanswered (s : Snapshot) (lookup : NodeLookup) : Prop :=
  ∃ r ∈ s.replicas, (r.state ∈ ReplicaState.good ∨
    (r.state = .unhealthy ∧ r.sequence = s.maxSequence)) ∧ lookup r.node = none

end Snapshot

/-- The part of an evaluation that is about copies. -/
def Evaluation.copies (e : Evaluation) : Plan :=
  ⟨e.ofKind .replicate, e.withheldOf .replicate⟩

/-- A plan asks for a number of copies from these sources, or withholds them. -/
structure Plan.CopiesFrom (p : Plan) (id : ContainerId) (copies : Nat) (sources : List Replica)
    (unanswered : Prop) : Prop where
  /-- A lone source is pinned by every copy. -/
  pinned : ∀ r, sources = [r] →
    p.directives = List.replicate copies (.replicate id (some r.node))
  /-- Of several sources none is pinned. -/
  free : 2 ≤ sources.length → p.directives = List.replicate copies (.replicate id none)
  granted : sources ≠ [] → p.withheld = []
  refused : sources = [] → p.directives = []
  /-- Without a source the reason tells whether one might have answered. -/
  unavailable : sources = [] → unanswered →
    p.withheld = List.replicate copies ⟨.replicate, none, .registryUnavailable⟩
  absent : sources = [] → ¬ unanswered →
    p.withheld = List.replicate copies ⟨.replicate, none, .noSource⟩

namespace Snapshot

variable (s : Snapshot) (lookup : NodeLookup)

/-- The order of two filters does not matter, and a filter can be put another way. -/
theorem filter_select_usable (f : Selector) (kind : Replica → Bool)
    (hKind : ∀ r ∈ s.replicas, f.selects r = kind r) :
    (s.select f).filter (Plan.isUsableSource lookup) =
      (s.replicas.filter fun r => lookup.Serves r.node).filter kind := by
  rw [select, List.filter_filter, List.filter_filter]
  refine List.filter_congr fun r hr => ?_
  rw [hKind r hr, Bool.and_comm]
  congr 1
  rw [Bool.eq_iff_iff, decide_eq_true_eq, lookup.serves_iff]

/-- The planner looks for sources tier by tier and finds the same. -/
theorem sourcePool_eq_sources : Plan.sourcePool lookup s = s.sources lookup := by
  have hGood := s.filter_select_usable lookup .good
    (fun r => r.state ∈ ReplicaState.good) fun r _ => by
      rw [Bool.eq_iff_iff, Selector.good, Selector.selects_inStates_iff, decide_eq_true_eq]
  have hLatest := s.filter_select_usable lookup
    (Selector.unhealthy.both (.atSequence s.maxSequence))
    (fun r => r.state = .unhealthy ∧ r.sequence = s.maxSequence) fun r _ => by
      rw [Bool.eq_iff_iff, Selector.unhealthy, Selector.selects_both_atSequence_iff,
        decide_eq_true_eq]
      simp
  -- A sealed replica is good, so the first tier is found within the second.
  have hFilled : ∀ l : List Replica,
      l.filter (fun r => r.state ∈ ReplicaState.sealed ∧ r.isEmpty = false) =
        (l.filter fun r => r.state ∈ ReplicaState.good).filter
          fun r => ReplicaState.sealed.contains r.state && !r.isEmpty := by
    intro l
    rw [List.filter_filter]
    refine List.filter_congr fun r _ => ?_
    have hWider : r.state ∈ ReplicaState.sealed → r.state ∈ ReplicaState.good :=
      ReplicaState.mem_good_of_mem_sealed
    rw [Bool.eq_iff_iff]
    simp only [decide_eq_true_eq, Bool.and_eq_true, List.contains_iff_mem, Bool.not_eq_true']
    tauto
  rw [Plan.sourcePool, Plan.latestUnhealthy, hGood, hLatest, sources]
  simp only [hFilled]
  generalize (s.replicas.filter fun r => lookup.Serves r.node).filter
    (fun r => r.state ∈ ReplicaState.good) = good
  cases good with
  | nil => simp
  | cons q rest =>
    dsimp only
    split
    · rename_i hNone
      rw [if_neg (not_not_intro hNone), if_pos (List.cons_ne_nil q rest)]
    · rename_i filled hSome
      rw [if_pos hSome]

theorem sourceLookupFailed_iff :
    Plan.sourceLookupFailed lookup s = true ↔ s.SourceUnanswered lookup := by
  rw [Plan.sourceLookupFailed, List.any_append, Bool.or_eq_true, List.any_eq_true, List.any_eq_true]
  simp only [Selector.good, mem_select_inStates, Plan.latestUnhealthy, Selector.unhealthy,
    mem_select_both_atSequence, Option.isNone_iff_eq_none, List.mem_singleton, ← exists_or,
    SourceUnanswered]
  exact exists_congr fun r => by tauto

/-- What the planner of copies does with the sources it finds. -/
theorem copiesFrom_copying (missing : Nat) :
    (Plan.copying lookup s missing).CopiesFrom s.id missing (s.sources lookup)
      (s.SourceUnanswered lookup) := by
  rw [← sourcePool_eq_sources, ← sourceLookupFailed_iff, Plan.copying]
  split
  · rename_i hNone
    rw [hNone]
    constructor <;> simp +contextual
  · rename_i only hOnly
    rw [hOnly]
    constructor <;> simp
  · rename_i hSome hSeveral
    exact ⟨fun r hr => absurd hr (hSeveral r), fun _ => rfl, fun _ => rfl,
      fun h => absurd h hSome, fun h => absurd h hSome, fun h => absurd h hSome⟩

/-- Where good replicas are missing, the part about copies is the planner's. -/
theorem copies_evaluate (hStage : s.container.state.isRepairable = true)
    (hShort : s.count .good < s.factor) :
    (s.evaluate lookup).copies = Plan.copying lookup s (s.factor - s.count .good) := by
  have hUnder : s.capacity.isUnder = true := decide_eq_true hShort
  rw [Evaluation.copies, ofKind_evaluate, Evaluation.withheldOf_evaluate, part, hStage, hUnder]
  rfl

end Snapshot

/-- Copies come from the best tier.  Where good replicas are missing at a stage that is repaired, as many
copies are asked for: each pins the source if there is a single one, and none pins any if there are
several.  Without a source no copy is asked for and all are withheld, because nobody can tell whether
there is a source if some replica that might be one does not answer, and because there is none otherwise. -/
theorem copies_come_from_best_tier (s : Snapshot) (lookup : NodeLookup)
    (hStage : s.container.state = .quasiClosed ∨ s.container.state = .closed)
    (hShort : s.count .good < s.factor) :
    (s.evaluate lookup).copies.CopiesFrom s.id (s.factor - s.count .good) (s.sources lookup)
      (s.SourceUnanswered lookup) := by
  rw [s.copies_evaluate lookup ((ContainerState.isRepairable_iff _).2 hStage) hShort]
  exact s.copiesFrom_copying lookup _

/-- The sealed replica with data has left the cluster and the other sealed one is empty, so the empty one
and the one still written to are both sources, and neither is pinned.  Once the latter's node is dead the
empty one is pinned; once no good one can serve, the unhealthy one at the highest sequence is. -/
theorem copies_come_from_best_tier_of_four :
    let s := Snapshot.of ⟨⟨1⟩, .closed, 5, 9⟩
      [⟨"a", .closed, 9, some "a", false⟩, ⟨"b", .quasiClosed, 9, some "b", true⟩,
        ⟨"c", .opened, 4, some "c", false⟩, ⟨"d", .unhealthy, 9, some "d", false⟩]
    let lookup (dead : List NodeId) : NodeLookup := fun n =>
      some ⟨if n = "a" then .decommissioned else .inService,
        if n ∈ dead then .dead else .healthy, none⟩
    let asked (dead : List NodeId) := (s.evaluate (lookup dead)).copies.directives
    s.count .good < s.factor ∧
      asked [] = List.replicate 2 (.replicate ⟨1⟩ none) ∧
      asked ["c"] = List.replicate 2 (.replicate ⟨1⟩ (some "b")) ∧
      asked ["b", "c"] = List.replicate 2 (.replicate ⟨1⟩ (some "d")) := by
  intro s lookup asked
  have hShort : s.count .good < s.factor := by decide
  have hBest := fun dead => copies_come_from_best_tier s (lookup dead) (.inr rfl) hShort
  have hSeveral : 2 ≤ (s.sources (lookup [])).length := by decide
  have hEmpty : s.sources (lookup ["c"]) = [⟨"b", .quasiClosed, 9, some "b", true⟩] := by decide
  have hUnhealthy : s.sources (lookup ["b", "c"]) = [⟨"d", .unhealthy, 9, some "d", false⟩] := by
    decide
  exact ⟨hShort, (hBest []).free hSeveral, (hBest ["c"]).pinned _ hEmpty,
    (hBest ["b", "c"]).pinned _ hUnhealthy⟩

end ReplicaUpkeep
