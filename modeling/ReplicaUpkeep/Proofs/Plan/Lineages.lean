import Mathlib.Data.List.Dedup
import Mathlib.Data.List.Induction
import Mathlib.Data.List.Perm.Subperm
import ReplicaUpkeep.Proofs.Plan.Excess

/-!
# The lineages that deletes leave

The planner of deletes takes the best replica of an origin only when no other candidate is left.  Its
order is spare replicas first and then one replica of each origin, so what is left of the candidates is
either all the best ones with some spares, or some of the best ones alone; in both cases as many
lineages are left as replicas can carry.

The one replica that is passed over is the last good holder of the highest sequence.  It is never a
spare: the best of its origin has the highest sequence as well and stands behind it.
-/

namespace ReplicaUpkeep

namespace Replica

/-- At least as much worth keeping: of a higher sequence, or at the same one with data where the other
is empty, or alike in both and on a node that does not come after the other's. -/
def IsAsWorthy (r q : Replica) : Prop :=
  q.sequence < r.sequence ∨
    (q.sequence = r.sequence ∧
      ((q.isEmpty = true ∧ r.isEmpty = false) ∨ (q.isEmpty = r.isEmpty ∧ r.node ≤ q.node)))

instance (r q : Replica) : Decidable (r.IsAsWorthy q) :=
  inferInstanceAs (Decidable (_ ∨ _))

/-- The replica of an origin that is most worth keeping. -/
structure IsBestOf (r : Replica) (origin : NodeId) (replicas : List Replica) : Prop where
  mem : r ∈ replicas
  own : r.origin = some origin
  best : ∀ q ∈ replicas, q.origin = some origin → r.IsAsWorthy q

theorem IsAsWorthy.refl (r : Replica) : r.IsAsWorthy r :=
  Or.inr ⟨rfl, Or.inr ⟨rfl, Std.le_refl _⟩⟩

theorem IsAsWorthy.trans {a b c : Replica} (hab : a.IsAsWorthy b) (hbc : b.IsAsWorthy c) :
    a.IsAsWorthy c := by
  unfold IsAsWorthy at *
  grind

theorem isAsWorthy_of_isWorthier {r q : Replica} (h : Plan.isWorthier r q = true) :
    r.IsAsWorthy q := by
  unfold IsAsWorthy
  simp only [Plan.isWorthier, Bool.or_eq_true, Bool.and_eq_true, decide_eq_true_eq,
    Bool.not_eq_true'] at h
  grind

theorem isAsWorthy_of_not_isWorthier {r q : Replica} (h : ¬ Plan.isWorthier q r = true) :
    r.IsAsWorthy q := by
  unfold IsAsWorthy
  simp only [Plan.isWorthier, Bool.or_eq_true, Bool.and_eq_true, decide_eq_true_eq,
    Bool.not_eq_true'] at h
  grind

theorem IsAsWorthy.sequence_le {r q : Replica} (h : r.IsAsWorthy q) : q.sequence ≤ r.sequence := by
  unfold IsAsWorthy at h
  grind

/-- Of two replicas that are as worthy as each other neither node comes before the other's. -/
theorem IsAsWorthy.node_eq {r q : Replica} (h : r.IsAsWorthy q) (h' : q.IsAsWorthy r) :
    r.node = q.node := by
  unfold IsAsWorthy at h h'
  grind

end Replica

namespace Plan

/-! ## The best of each origin -/

/-- One more replica is compared with the best of its own origin only. -/
theorem get?_bestOfOrigins_concat (l : List Replica) (r : Replica) (origin : NodeId) :
    (bestOfOrigins (l ++ [r])).get? origin =
      if r.origin = some origin then
        some (((bestOfOrigins l).get? origin).elim r fun best =>
          if isWorthier r best then r else best)
      else (bestOfOrigins l).get? origin := by
  rw [bestOfOrigins, List.foldl_append, ← bestOfOrigins, List.foldl_cons, List.foldl_nil]
  cases hOrigin : r.origin with
  | none => simp
  | some own =>
    by_cases hSame : origin = own
    · subst hSame
      cases hBest : (bestOfOrigins l).get? origin with
      | none => simp [hBest]
      | some best => by_cases hWorthier : isWorthier r best = true <;> simp [hWorthier, hBest]
    · have hOther : ¬ own = origin := fun h => hSame h.symm
      cases hBest : (bestOfOrigins l).get? own with
      | none => simp [Table.get?_insert, hBest, hSame, hOther]
      | some best =>
        by_cases hWorthier : isWorthier r best = true <;>
          simp [Table.get?_insert, hWorthier, hBest, hSame, hOther]

/-- The table holds the best replica of every origin that occurs. -/
theorem get?_bestOfOrigins (l : List Replica) (origin : NodeId) :
    ((bestOfOrigins l).get? origin = none → ∀ q ∈ l, q.origin ≠ some origin) ∧
      ∀ r, (bestOfOrigins l).get? origin = some r → r.IsBestOf origin l := by
  induction l using List.reverseRecOn with
  | nil => simp [bestOfOrigins]
  | append_singleton l r ih =>
    obtain ⟨hNone, hSome⟩ := ih
    rw [get?_bestOfOrigins_concat]
    by_cases hOwn : r.origin = some origin
    · rw [if_pos hOwn]
      refine ⟨fun h => absurd h (Option.some_ne_none _), fun b hb => ?_⟩
      cases hBest : (bestOfOrigins l).get? origin with
      | none =>
        rw [hBest] at hb
        obtain rfl : r = b := Option.some.inj hb
        refine ⟨by simp, hOwn, fun q hq hSame => ?_⟩
        rcases List.mem_append.1 hq with hEarlier | hLast
        · exact absurd hSame (hNone hBest q hEarlier)
        · rw [List.mem_singleton.1 hLast]
          exact .refl r
      | some best =>
        rw [hBest] at hb
        obtain ⟨hMem, hOrigin, hAll⟩ := hSome best hBest
        by_cases hWorthier : isWorthier r best = true
        · obtain rfl : r = b := by simpa [hWorthier] using hb
          refine ⟨by simp, hOwn, fun q hq hSame => ?_⟩
          rcases List.mem_append.1 hq with hEarlier | hLast
          · exact (Replica.isAsWorthy_of_isWorthier hWorthier).trans (hAll q hEarlier hSame)
          · rw [List.mem_singleton.1 hLast]
            exact .refl r
        · obtain rfl : best = b := by simpa [hWorthier] using hb
          refine ⟨List.mem_append_left _ hMem, hOrigin, fun q hq hSame => ?_⟩
          rcases List.mem_append.1 hq with hEarlier | hLast
          · exact hAll q hEarlier hSame
          · rw [List.mem_singleton.1 hLast]
            exact Replica.isAsWorthy_of_not_isWorthier hWorthier
    · rw [if_neg hOwn]
      refine ⟨fun h q hq => ?_, fun b hb => ?_⟩
      · rcases List.mem_append.1 hq with hEarlier | hLast
        · exact hNone h q hEarlier
        · rwa [List.mem_singleton.1 hLast]
      · obtain ⟨hMem, hOrigin, hBest⟩ := hSome b hb
        refine ⟨List.mem_append_left _ hMem, hOrigin, fun q hq hSame => ?_⟩
        rcases List.mem_append.1 hq with hEarlier | hLast
        · exact hBest q hEarlier hSame
        · rw [List.mem_singleton.1 hLast] at hSame
          exact absurd hSame hOwn

/-- Every origin that occurs has a best replica. -/
theorem exists_isBestOf {l : List Replica} {q : Replica} {origin : NodeId} (hq : q ∈ l)
    (hOrigin : q.origin = some origin) : ∃ r : Replica, r.IsBestOf origin l := by
  obtain ⟨hNone, hSome⟩ := get?_bestOfOrigins l origin
  cases hBest : (bestOfOrigins l).get? origin with
  | none => exact absurd hOrigin (hNone hBest q hq)
  | some r => exact ⟨r, hSome r hBest⟩

/-! ## Spares and leaders -/

/-- The candidates that are not the best of an origin, in the order of deletion. -/
def spares (l : List Replica) : List Replica :=
  (Order.sortBy goesBefore l).filter fun r => !(representatives l).contains r.node

/-- The best candidate of each origin, in the order of deletion. -/
def leaders (l : List Replica) : List Replica :=
  (Order.sortBy goesBefore l).filter fun r => (representatives l).contains r.node

theorem deletionOrder_eq_append (l : List Replica) : deletionOrder l = spares l ++ leaders l :=
  rfl

/-- A candidate is either a spare one or the best of its origin. -/
theorem mem_spares (l : List Replica) (r : Replica) : r ∈ spares l ↔ r ∈ l ∧ r ∉ leaders l := by
  have hSplit : r ∉ leaders l ↔ (r ∈ l → (representatives l).contains r.node = false) := by
    simp [leaders, Order.mem_sortBy]
  rw [spares, List.mem_filter, Order.mem_sortBy, hSplit, Bool.not_eq_true']
  constructor
  · rintro ⟨hr, hSpare⟩
    exact ⟨hr, fun _ => hSpare⟩
  · rintro ⟨hr, hSpare⟩
    exact ⟨hr, hSpare hr⟩

section Leaders

variable {l : List Replica} (hNodes : (l.map Replica.node).Nodup)
include hNodes

theorem eq_of_isBestOf {a b : Replica} {origin : NodeId} (ha : a.IsBestOf origin l)
    (hb : b.IsBestOf origin l) : a = b :=
  List.inj_on_of_nodup_map hNodes ha.mem hb.mem
    ((ha.best b hb.mem hb.own).node_eq (hb.best a ha.mem ha.own))

theorem mem_leaders (r : Replica) : r ∈ leaders l ↔ ∃ origin, r.IsBestOf origin l := by
  have hListed : (representatives l).contains r.node = true ↔
      ∃ q origin, (bestOfOrigins l).get? origin = some q ∧ q.node = r.node := by
    simp [representatives, Table.mem_values_iff]
  rw [leaders, List.mem_filter, Order.mem_sortBy, hListed]
  constructor
  · rintro ⟨hr, q, origin, hBest, hNode⟩
    have hLeads := (get?_bestOfOrigins l origin).2 q hBest
    rw [List.inj_on_of_nodup_map hNodes hr hLeads.mem hNode.symm]
    exact ⟨origin, hLeads⟩
  · rintro ⟨origin, hLeads⟩
    obtain ⟨hNone, hSome⟩ := get?_bestOfOrigins l origin
    cases hBest : (bestOfOrigins l).get? origin with
    | none => exact absurd hLeads.own (hNone hBest r hLeads.mem)
    | some q =>
      obtain rfl : q = r := eq_of_isBestOf hNodes (hSome q hBest) hLeads
      exact ⟨hLeads.mem, q, origin, hBest, rfl⟩

/-- A leader is the best of its own origin. -/
theorem isBestOf_of_mem_leaders {r : Replica} (hr : r ∈ leaders l) {origin : NodeId}
    (hOrigin : r.origin = some origin) : r.IsBestOf origin l := by
  obtain ⟨own, hBest⟩ := (mem_leaders hNodes r).1 hr
  obtain rfl : own = origin := Option.some.inj (hBest.own.symm.trans hOrigin)
  exact hBest

/-- Replicas that are the best of their origins have distinct ones. -/
theorem nodup_origin_of_isBestOf {m : List Replica} (hDistinct : m.Nodup)
    (hBest : ∀ r ∈ m, ∀ origin, r.origin = some origin → r.IsBestOf origin l) :
    (m.filterMap Replica.origin).Nodup := by
  rw [List.Nodup, List.pairwise_filterMap]
  refine hDistinct.imp_of_mem fun {a b} ha hb hNe x hx y hy hSame => hNe ?_
  subst hSame
  exact eq_of_isBestOf hNodes (hBest a ha x hx) (hBest b hb x hy)

/-- Where every candidate has an origin, a spare one at the highest sequence has a leader there. -/
theorem countP_spares_lt {maxSequence : UInt64} (hOrigins : ∀ r ∈ l, r.origin ≠ none)
    (hMax : ∀ r ∈ l, r.sequence ≤ maxSequence) :
    (spares l).countP (fun r => r.sequence = maxSequence) = 0 ∨
      (spares l).countP (fun r => r.sequence = maxSequence) <
        l.countP (fun r => r.sequence = maxSequence) := by
  by_cases hNobody : (spares l).countP (fun r => r.sequence = maxSequence) = 0
  · exact Or.inl hNobody
  · obtain ⟨r, hSpare, hLatest⟩ := List.countP_pos_iff.1 (Nat.pos_of_ne_zero hNobody)
    have hr := ((mem_spares l r).1 hSpare).1
    obtain ⟨origin, hOrigin⟩ := Option.ne_none_iff_exists'.1 (hOrigins r hr)
    obtain ⟨b, hLeads⟩ := exists_isBestOf hr hOrigin
    have hAhead := (hLeads.best r hr hOrigin).sequence_le
    rw [of_decide_eq_true hLatest] at hAhead
    have hLeader : 0 < (leaders l).countP (fun r => r.sequence = maxSequence) :=
      List.countP_pos_iff.2 ⟨b, (mem_leaders hNodes b).2 ⟨origin, hLeads⟩,
        decide_eq_true (Std.le_antisymm (hMax b hLeads.mem) hAhead)⟩
    rw [← (deletionOrder_perm l).countP_eq, deletionOrder_eq_append, List.countP_append]
    omega

/-- No spare candidate is passed over, so leaders go only when no spare one is left. -/
theorem choose_deletionOrder_subset {maxSequence : UInt64} {n holders : Nat}
    (hOrigins : ∀ r ∈ l, r.origin ≠ none) (hMax : ∀ r ∈ l, r.sequence ≤ maxSequence)
    (hHolders : l.countP (fun r => r.sequence = maxSequence) ≤ holders) :
    choose maxSequence n holders (deletionOrder l) ⊆ spares l ∨
      spares l ⊆ choose maxSequence n holders (deletionOrder l) := by
  have hFront := countP_spares_lt hNodes hOrigins hMax
  rw [deletionOrder_eq_append, choose_append (by omega)]
  rcases Nat.le_total n (spares l).length with hFew | hMany
  · rw [Nat.sub_eq_zero_of_le hFew, choose, List.append_nil]
    exact Or.inl (List.take_subset _ _)
  · rw [List.take_of_length_le hMany]
    exact Or.inr (List.subset_append_left _ _)

end Leaders

/-! ## Counting lineages -/

/-- How many lineages replicas carry. -/
def lineages (l : List Replica) : Nat :=
  (l.filterMap Replica.origin).dedup.length

theorem lineages_le_length (l : List Replica) : lineages l ≤ l.length :=
  Nat.le_trans (List.dedup_sublist _).length_le (List.length_filterMap_le _ _)

theorem lineages_le_of_subset {a b : List Replica}
    (h : a.filterMap Replica.origin ⊆ b.filterMap Replica.origin) : lineages a ≤ lineages b :=
  (List.subperm_of_subset (List.nodup_dedup _) fun _ hx =>
    List.mem_dedup.2 (h (List.mem_dedup.1 hx))).length_le

/-- Replicas of distinct origins carry a lineage each. -/
theorem lineages_eq_length {l : List Replica} (hOrigins : ∀ r ∈ l, r.origin ≠ none)
    (hApart : (l.filterMap Replica.origin).Nodup) : lineages l = l.length := by
  rw [lineages, hApart.dedup]
  rw [List.length_filterMap_eq_countP, List.countP_eq_length]
  exact fun r hr => Option.isSome_iff_ne_none.2 (hOrigins r hr)

section Left

variable {gone left l : List Replica} (hNodes : (l.map Replica.node).Nodup)
  (hSplit : (gone ++ left).Perm l)
include hNodes hSplit

theorem mem_left_iff (r : Replica) : r ∈ left ↔ r ∈ l ∧ r ∉ gone := by
  have hDistinct := hSplit.nodup_iff.2 hNodes.of_map
  rw [List.nodup_append] at hDistinct
  rw [← hSplit.mem_iff, List.mem_append]
  constructor
  · exact fun hr => ⟨Or.inr hr, fun hGone => hDistinct.2.2 r hGone r hr rfl⟩
  · exact fun ⟨hr, hKept⟩ => hr.resolve_left hKept

/-- Where spare replicas alone go, all leaders are left. -/
theorem mem_left_of_isBestOf (hSpare : gone ⊆ spares l) {r : Replica} {origin : NodeId}
    (hBest : r.IsBestOf origin l) : r ∈ left := by
  have hLeads := (mem_leaders hNodes r).2 ⟨origin, hBest⟩
  exact (mem_left_iff hNodes hSplit r).2
    ⟨hBest.mem, fun hGone => ((mem_spares l r).1 (hSpare hGone)).2 hLeads⟩

/-- Where all spare replicas go, leaders alone are left. -/
theorem isBestOf_of_mem_left (hAll : spares l ⊆ gone) {q : Replica} {origin : NodeId}
    (hq : q ∈ left) (hOrigin : q.origin = some origin) : q.IsBestOf origin l := by
  obtain ⟨hMem, hKept⟩ := (mem_left_iff hNodes hSplit q).1 hq
  have hLeads : q ∈ leaders l := by
    by_contra hSpare
    exact hKept (hAll ((mem_spares l q).2 ⟨hMem, hSpare⟩))
  exact isBestOf_of_mem_leaders hNodes hLeads hOrigin

theorem origins_left_subset : left.filterMap Replica.origin ⊆ l.filterMap Replica.origin := by
  intro origin h
  obtain ⟨r, hr, hOrigin⟩ := List.mem_filterMap.1 h
  exact List.mem_filterMap.2 ⟨r, ((mem_left_iff hNodes hSplit r).1 hr).1, hOrigin⟩

variable (hOrigins : ∀ r ∈ l, r.origin ≠ none) (hOrder : gone ⊆ spares l ∨ spares l ⊆ gone)
include hOrigins hOrder

/-- Either every origin is still carried, or each replica that is left carries one of its own. -/
theorem lineages_left : lineages left = min (lineages l) left.length := by
  have hLess := lineages_le_of_subset (origins_left_subset hNodes hSplit)
  have hLength := lineages_le_length left
  rcases hOrder with hSpare | hAll
  · have hCarried : l.filterMap Replica.origin ⊆ left.filterMap Replica.origin := by
      intro origin h
      obtain ⟨q, hq, hOrigin⟩ := List.mem_filterMap.1 h
      obtain ⟨r, hBest⟩ := exists_isBestOf hq hOrigin
      exact List.mem_filterMap.2 ⟨r, mem_left_of_isBestOf hNodes hSplit hSpare hBest, hBest.own⟩
    have hMore := lineages_le_of_subset hCarried
    omega
  · have hDistinct : left.Nodup := (hSplit.nodup_iff.2 hNodes.of_map).of_append_right
    have hApart : (left.filterMap Replica.origin).Nodup :=
      nodup_origin_of_isBestOf hNodes hDistinct fun q hq origin hOrigin =>
        isBestOf_of_mem_left hNodes hSplit hAll hq hOrigin
    have hKnown : ∀ r ∈ left, r.origin ≠ none := fun r hr =>
      hOrigins r ((mem_left_iff hNodes hSplit r).1 hr).1
    have hEach := lineages_eq_length hKnown hApart
    omega

/-- While there is a place for every lineage, the best replica of each is left. -/
theorem exists_isBestOf_left (hRoom : lineages l ≤ left.length) {q : Replica} {origin : NodeId}
    (hq : q ∈ l) (hOrigin : q.origin = some origin) : ∃ r ∈ left, r.IsBestOf origin l := by
  rcases hOrder with hSpare | hAll
  · obtain ⟨r, hBest⟩ := exists_isBestOf hq hOrigin
    exact ⟨r, mem_left_of_isBestOf hNodes hSplit hSpare hBest, hBest⟩
  · -- As many lineages are left as there were, so each of them is.
    have hCount := lineages_left hNodes hSplit hOrigins (Or.inr hAll)
    rw [Nat.min_eq_left hRoom] at hCount
    have hSub : (left.filterMap Replica.origin).dedup ⊆ (l.filterMap Replica.origin).dedup :=
      fun x hx => List.mem_dedup.2 (origins_left_subset hNodes hSplit (List.mem_dedup.1 hx))
    have hSame := (List.subperm_of_subset (List.nodup_dedup _) hSub).perm_of_length_le
      (Nat.le_of_eq hCount.symm)
    have hCarried : origin ∈ left.filterMap Replica.origin := by
      rw [← List.mem_dedup, hSame.mem_iff, List.mem_dedup]
      exact List.mem_filterMap.2 ⟨q, hq, hOrigin⟩
    obtain ⟨r, hr, hOwn⟩ := List.mem_filterMap.1 hCarried
    exact ⟨r, hr, isBestOf_of_mem_left hNodes hSplit hAll hr hOwn⟩

end Left

end Plan

namespace Snapshot

variable (s : Snapshot) (lookup : NodeLookup)

theorem length_dueToDelete :
    (s.dueToDelete lookup).length = (s.evaluate lookup).countOf .delete := by
  rw [Evaluation.countOf, Plan.countOf, ← Evaluation.ofKind, ofKind_evaluate,
    directives_part_delete, List.length_map]

variable (hNodes : (s.replicas.map Replica.node).Nodup)
include hNodes

/-- What goes and what may still be deleted are what might be deleted before. -/
theorem dueToDelete_append_deletable_pruned_perm :
    (s.dueToDelete lookup ++ (s.pruned lookup).deletable lookup).Perm (s.deletable lookup) := by
  have hAll := (s.dueToDelete_append_pruned_perm lookup hNodes).filter fun r =>
    r.state ∈ ReplicaState.sealed ∧ lookup.Reaches r.node
  rw [List.filter_append] at hAll
  have hGone : (s.dueToDelete lookup).filter
      (fun r => r.state ∈ ReplicaState.sealed ∧ lookup.Reaches r.node) = s.dueToDelete lookup := by
    refine List.filter_eq_self.2 fun r hr => decide_eq_true ?_
    have hCandidate := mem_candidates_of_mem_dueToDelete hr
    rw [candidates_eq_deletable] at hCandidate
    exact ((s.mem_deletable lookup r).1 hCandidate).2
  rwa [hGone] at hAll

theorem nodup_node_deletable : ((s.deletable lookup).map Replica.node).Nodup :=
  hNodes.sublist (List.filter_sublist.map _)

/-- Leaders go only when no spare replica is left. -/
theorem dueToDelete_subset_spares
    (hOrigins : ∀ r ∈ s.deletable lookup, r.origin ≠ none) :
    s.dueToDelete lookup ⊆ Plan.spares (s.deletable lookup) ∨
      Plan.spares (s.deletable lookup) ⊆ s.dueToDelete lookup := by
  by_cases hPlanned : s.dueToDelete lookup = []
  · exact Or.inl (hPlanned ▸ List.nil_subset _)
  · obtain ⟨hStage, hQuiet⟩ := allowed_of_dueToDelete_ne_nil hPlanned
    have hMax : ∀ r ∈ s.deletable lookup, r.sequence ≤ s.maxSequence := fun r hr =>
      s.sequence_le_maxSequence ((s.mem_deletable lookup r).1 hr).1
    have hHolders := s.latestHolders_eq_add lookup
    rw [dueToDelete_eq_chosen hStage hQuiet, Plan.chosen, candidates_eq_deletable]
    exact Plan.choose_deletionOrder_subset (s.nodup_node_deletable lookup hNodes) hOrigins hMax
      (by omega)

end Snapshot

/-- Deletes keep as many lineages as replicas can carry.  Where nodes are distinct and every sealed
replica has an origin, the replicas that may be deleted and are not carry all lineages that were carried,
or one each if they are too few for that; and as long as they are not too few, the best replica of every
origin is among them. -/
theorem deletes_keep_lineages (s : Snapshot) (lookup : NodeLookup)
    (hNodes : (s.replicas.map Replica.node).Nodup)
    (hOrigins : ∀ r ∈ s.replicas, r.state ∈ ReplicaState.sealed → r.origin ≠ none) :
    let before := s.deletable lookup
    let after := (s.pruned lookup).deletable lookup
    let deletes := (s.evaluate lookup).countOf .delete
    after.length = before.length - deletes ∧ deletes ≤ before.length ∧
      Plan.lineages after = min (Plan.lineages before) (before.length - deletes) ∧
      (deletes ≤ before.length - Plan.lineages before →
        ∀ q ∈ before, ∀ origin, q.origin = some origin → ∃ r ∈ after, r.IsBestOf origin before) := by
  intro before after deletes
  have hDeletable := s.nodup_node_deletable lookup hNodes
  have hSplit := s.dueToDelete_append_deletable_pruned_perm lookup hNodes
  have hKnown : ∀ r ∈ before, r.origin ≠ none := fun r hr =>
    have hr := (s.mem_deletable lookup r).1 hr
    hOrigins r hr.1 hr.2.1
  have hOrder := s.dueToDelete_subset_spares lookup hNodes hKnown
  have hDeletes : deletes = (s.dueToDelete lookup).length := (s.length_dueToDelete lookup).symm
  have hLength : deletes + after.length = before.length := by
    rw [hDeletes, ← List.length_append]
    exact hSplit.length_eq
  have hAfter : after.length = before.length - deletes := by omega
  have hLineages : Plan.lineages before ≤ before.length := Plan.lineages_le_length before
  refine ⟨hAfter, by omega, ?_, fun hRoom q hq origin hOrigin => ?_⟩
  · rw [← hAfter]
    exact Plan.lineages_left hDeletable hSplit hKnown hOrder
  · have hPlace : Plan.lineages before ≤ after.length := by omega
    exact Plan.exists_isBestOf_left hDeletable hSplit hKnown hOrder hPlace hq hOrigin

/-- Five replicas carry three lineages and three of them are in excess, so one lineage has to go; the
order of deletion takes both spare replicas first.  With two in excess the best of each origin stays. -/
theorem deletes_keep_lineages_of_five :
    let replicas : List Replica :=
      [⟨"a", .closed, 10, some "x", false⟩, ⟨"b", .closed, 9, some "x", false⟩,
        ⟨"c", .quasiClosed, 10, some "y", false⟩, ⟨"d", .closed, 10, some "y", true⟩,
        ⟨"e", .closed, 4, some "z", false⟩]
    let tight := Snapshot.of ⟨⟨1⟩, .closed, 2, 10⟩ replicas
    let roomy := Snapshot.of ⟨⟨1⟩, .closed, 3, 10⟩ replicas
    let lookup : NodeLookup := fun _ => some ⟨.inService, .healthy, none⟩
    ((tight.replicas.map Replica.node).Nodup ∧
        Plan.lineages ((tight.pruned lookup).deletable lookup) = 2) ∧
      (roomy.replicas.map Replica.node).Nodup ∧
        ∃ r ∈ (roomy.pruned lookup).deletable lookup, r.IsBestOf "z" (roomy.deletable lookup) := by
  intro replicas tight roomy lookup
  have hTight : (tight.replicas.map Replica.node).Nodup := by decide
  have hRoomy : (roomy.replicas.map Replica.node).Nodup := by decide
  obtain ⟨-, -, hCount, -⟩ := deletes_keep_lineages tight lookup hTight (by decide)
  obtain ⟨-, -, -, hBest⟩ := deletes_keep_lineages roomy lookup hRoomy (by decide)
  refine ⟨⟨hTight, hCount.trans (by decide)⟩, hRoomy, ?_⟩
  exact hBest (by decide) ⟨"e", .closed, 4, some "z", false⟩ (by decide) "z" rfl

end ReplicaUpkeep
