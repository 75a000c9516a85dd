import Mathlib.Data.Set.Basic
import ReplicaUpkeep.Proofs.Snapshot.Selection

/-!
# The algebra of selectors

A selector stands for a set of replicas, however deep its parts are nested: a conjunction for the
intersection of what its parts stand for, a negation for the complement.  The laws of sets are therefore
laws of selectors, but only of what they select.  A conjunction is also a value, and its shape shows how it
was built; when two groupings or two orders have the same shape is said here exactly.

On a snapshot, to select by a conjunction is to select by one part from what the other selected.
-/

namespace ReplicaUpkeep

namespace Selector

/-! ## What a selector stands for -/

/-- Induction over selectors, with the hypothesis for every part of a conjunction. -/
@[elab_as_elim, induction_eliminator]
theorem induct {motive : Selector → Prop} (any : motive .any)
    (inStates : ∀ states, motive (.inStates states))
    (atSequence : ∀ sequence, motive (.atSequence sequence))
    (negation : ∀ inner, motive inner → motive (.negation inner))
    (all : ∀ parts, (∀ f ∈ parts, motive f) → motive (.all parts)) :
    ∀ f : Selector, motive f
  | .any => any
  | .inStates states => inStates states
  | .atSequence sequence => atSequence sequence
  | .negation inner => negation inner (induct any inStates atSequence negation all inner)
  | .all parts =>
    all parts fun f _ => induct any inStates atSequence negation all f

/-- The replicas that a selector stands for. -/
def chosen : Selector → Set Replica
  | .any => Set.univ
  | .inStates states => {r | r.state ∈ states}
  | .atSequence sequence => {r | r.sequence = sequence}
  | .negation inner => inner.chosenᶜ
  | .all parts => {r | ∀ f, ∀ _ : f ∈ parts, r ∈ f.chosen}

/-- A selector selects what it stands for. -/
theorem selects_iff_mem_chosen (f : Selector) (r : Replica) :
    f.selects r = true ↔ r ∈ f.chosen := by
  induction f with
  | any => simp [selects, chosen]
  | inStates states =>
    rw [selects_inStates_iff, chosen]
    exact Iff.rfl
  | atSequence sequence =>
    rw [selects_atSequence_iff, chosen]
    exact Iff.rfl
  | negation inner ih =>
    rw [selects, Bool.not_eq_true', ← Bool.not_eq_true, ih, chosen]
    exact Iff.rfl
  | all parts ih =>
    rw [selects, allSelect_eq_all, List.all_eq_true, chosen]
    exact forall₂_congr ih

theorem chosen_both (f g : Selector) : (f.both g).chosen = f.chosen ∩ g.chosen := by
  ext r
  rw [← selects_iff_mem_chosen, selects_both, Bool.and_eq_true, selects_iff_mem_chosen,
    selects_iff_mem_chosen, Set.mem_inter_iff]

/-- Two selectors select the same replicas. -/
def Agrees (f g : Selector) : Prop :=
  ∀ r : Replica, f.selects r = g.selects r

theorem agrees_iff_chosen_eq (f g : Selector) : f.Agrees g ↔ f.chosen = g.chosen := by
  rw [Agrees, Set.ext_iff]
  refine forall_congr' fun r => ?_
  rw [Bool.eq_iff_iff, selects_iff_mem_chosen, selects_iff_mem_chosen]

theorem both_assoc_agrees (f g h : Selector) : ((f.both g).both h).Agrees (f.both (g.both h)) := by
  rw [agrees_iff_chosen_eq]
  simp only [chosen_both]
  exact Set.inter_assoc _ _ _

theorem both_comm_agrees (f g : Selector) : (f.both g).Agrees (g.both f) := by
  rw [agrees_iff_chosen_eq, chosen_both, chosen_both]
  exact Set.inter_comm _ _

/-! ## The shape of a conjunction -/

/-- The parts with which a selector enters a conjunction as its first part. -/
def conjuncts : Selector → List Selector
  | .any => []
  | .all parts => parts
  | f => [f]

theorem both_of_ne_any {f : Selector} (hf : f ≠ .any) (g : Selector) :
    f.both g = .all (f.conjuncts ++ [g]) := by
  cases f with
  | any => exact absurd rfl hf
  | _ => rfl

/-- Conjoining adds a part. -/
theorem length_conjuncts_both {f : Selector} (hf : f ≠ .any) (g : Selector) :
    (f.both g).conjuncts.length = f.conjuncts.length + 1 := by
  rw [both_of_ne_any hf, conjuncts, List.length_append, List.length_singleton]

theorem both_ne_any {f : Selector} (hf : f ≠ .any) (g : Selector) : f.both g ≠ .any := by
  rw [both_of_ne_any hf]
  exact Selector.noConfusion

theorem both_ne_self {f : Selector} (hf : f ≠ .any) (g : Selector) : f.both g ≠ f := by
  intro hSame
  have hLength := length_conjuncts_both hf g
  rw [hSame] at hLength
  omega

/-- Further parts are put behind those of a conjunction, one after the other. -/
theorem foldl_both_all (parts rest : List Selector) :
    rest.foldl both (.all parts) = .all (parts ++ rest) := by
  induction rest generalizing parts with
  | nil => rw [List.foldl_nil, List.append_nil]
  | cons g rest ih =>
    rw [List.foldl_cons, both, ih, List.append_assoc, List.singleton_append]

/-- How three are grouped shows in the shape, unless the first is `any`. -/
theorem both_assoc_iff (f g h : Selector) :
    (f.both g).both h = f.both (g.both h) ↔ f = .any := by
  constructor
  · intro hSame
    by_contra hf
    have hLength := length_conjuncts_both (both_ne_any hf g) h
    rw [hSame, length_conjuncts_both hf, length_conjuncts_both hf] at hLength
    omega
  · rintro rfl
    rfl

example : (good.both sealed).both closed = .all [good, sealed, closed] ∧
    good.both (sealed.both closed) = .all [good, .all [sealed, closed]] :=
  ⟨rfl, rfl⟩

/-- In which order two are conjoined shows in the shape, unless they are equal. -/
theorem both_comm_iff (f g : Selector) : f.both g = g.both f ↔ f = g := by
  refine ⟨fun hSame => ?_, fun hEq => hEq ▸ rfl⟩
  by_cases hf : f = .any <;> by_cases hg : g = .any
  · rw [hf, hg]
  · subst hf
    exact absurd hSame.symm (both_ne_self hg .any)
  · subst hg
    exact absurd hSame (both_ne_self hf .any)
  · rw [both_of_ne_any hf, both_of_ne_any hg, all.injEq] at hSame
    obtain ⟨-, hLast⟩ := List.append_inj' hSame rfl
    exact (List.singleton_inj.1 hLast).symm

/-- The laws by which selectors are combined. -/
structure Combines (f g h : Selector) : Prop where
  meaning : ∀ r : Replica, f.selects r = true ↔ r ∈ f.chosen
  both : ∀ r : Replica, (f.both g).selects r = true ↔ f.selects r = true ∧ g.selects r = true
  negate : ∀ r : Replica, f.negate.selects r = true ↔ ¬ f.selects r = true
  assoc : ((f.both g).both h).Agrees (f.both (g.both h))
  comm : (f.both g).Agrees (g.both f)
  /-- A leading `any` is dropped. -/
  dropped : Selector.any.both g = g
  /-- A conjunction in front takes in whatever follows, one level deep. -/
  flattened : ∀ parts rest : List Selector,
    rest.foldl Selector.both (.all parts) = .all (parts ++ rest)
  assoc_iff : (f.both g).both h = f.both (g.both h) ↔ f = .any
  comm_iff : f.both g = g.both f ↔ f = g

end Selector

namespace Snapshot

variable (s : Snapshot)

/-! ## Selecting from what was selected -/

theorem select_both (f g : Selector) :
    s.select (f.both g) = (s.select f).filter g.selects := by
  rw [select, select, List.filter_filter]
  exact List.filter_congr fun r _ => by rw [Selector.selects_both, Bool.and_comm]

/-- A conjunction of many is worked off one part at a time. -/
theorem select_foldl_both (f : Selector) (gs : List Selector) :
    s.select (gs.foldl Selector.both f) =
      gs.foldl (fun selected g => selected.filter g.selects) (s.select f) := by
  induction gs generalizing f with
  | nil => rfl
  | cons g rest ih => rw [List.foldl_cons, List.foldl_cons, ih, select_both]

/-- Live replicas in order are arranged as they are. -/
theorem arrange_eq_self {replicas : List Replica} (hLive : ∀ r ∈ replicas, r.state ≠ .deleted)
    (hOrdered : replicas.Pairwise (fun a b => a.node ≤ b.node)) : arrange replicas = replicas := by
  have hKept : replicas.filter (fun r => r.state ≠ .deleted) = replicas :=
    List.filter_eq_self.2 fun r hr => decide_eq_true (hLive r hr)
  rw [arrange, hKept]
  exact Order.sortBy_eq_self (hOrdered.imp fun hab => decide_eq_true hab)

/-- What was selected makes a snapshot without being rearranged. -/
theorem replicas_of_select (container : Container) (f : Selector) :
    (Snapshot.of container (s.select f)).replicas = s.select f :=
  arrange_eq_self (fun r hr => s.live r (List.mem_filter.1 hr).1)
    (s.ordered.sublist List.filter_sublist)

theorem count_add_count_negate (f : Selector) : s.count f + s.count f.negate = s.size := by
  have hRest : s.count f.negate = s.replicas.countP fun r => ¬ f.selects r = true := by
    rw [count_eq_countP]
    exact List.countP_congr fun r _ => by simp [Selector.selects_negate]
  rw [hRest, count_eq_countP, size]
  exact (List.length_eq_countP_add_countP f.selects).symm

theorem any_iff_count_pos (f : Selector) : s.any f = true ↔ 0 < s.count f := by
  rw [any, List.any_eq_true, count, select, List.length_filter_pos_iff]

/-- What two selectors select, and how it is counted. -/
structure Narrows (f g : Selector) : Prop where
  both : s.select (f.both g) = (s.select f).filter g.selects
  chained : ∀ gs : List Selector, s.select (gs.foldl Selector.both f) =
    gs.foldl (fun selected g => selected.filter g.selects) (s.select f)
  /-- It is the same with a snapshot of what was selected first. -/
  again : (Snapshot.of s.container (s.select f)).select g = s.select (f.both g)
  ordered : (s.select (f.both g)).Sublist s.replicas
  split : s.count f + s.count f.negate = s.size
  any_iff : s.any f = true ↔ 0 < s.count f

end Snapshot

/-- Selectors of any shape and depth form an algebra.  Each selects what it stands for; a conjunction
selects what both of its parts do and a negation what its part does not, so conjunctions can be regrouped
and turned round without a change in what they select, although this changes their shape in all but the
plainest cases.  On every snapshot a conjunction selects from what its first part selects, in the order
of the snapshot, and a selector and its negation share the replicas between them. -/
theorem selectors_form_algebra (f g h : Selector) (s : Snapshot) :
    f.Combines g h ∧ s.Narrows f g := by
  constructor
  · exact {
      meaning := f.selects_iff_mem_chosen
      both := fun r => by rw [Selector.selects_both, Bool.and_eq_true]
      negate := fun r => by rw [Selector.selects_negate, Bool.not_eq_true', Bool.not_eq_true]
      assoc := f.both_assoc_agrees g h
      comm := f.both_comm_agrees g
      dropped := rfl
      flattened := Selector.foldl_both_all
      assoc_iff := f.both_assoc_iff g h
      comm_iff := f.both_comm_iff g }
  · exact {
      both := s.select_both f g
      chained := s.select_foldl_both f
      again := by rw [s.select_both, Snapshot.select, s.replicas_of_select]
      ordered := List.filter_sublist
      split := s.count_add_count_negate f
      any_iff := s.any_iff_count_pos f }

end ReplicaUpkeep
