import ReplicaUpkeep.Verdict

/-!
# Distinct origins

The verdict tells lineages apart through a table that groups nodes by origin and keeps the groups of
several nodes.  This module recovers from that table what it is for: the set is clean exactly when no
two of its replicas, at two places of the list, carry one origin.  Replicas without an origin are in
no group, so they match nothing, each other included.
-/

namespace ReplicaUpkeep

namespace Origins

/-- The table that `holders` grows, read back one origin at a time. -/
private theorem getD_get?_foldl_holders (replicas : List Replica)
    (t : Table NodeId (List NodeId)) (origin : NodeId) :
    ((replicas.foldl
        (fun t r =>
          match r.origin with
          | none => t
          | some o => t.insert o ((t.get? o).getD [] ++ [r.node])) t).get? origin).getD [] =
      (t.get? origin).getD [] ++
        (replicas.filter (fun r => r.origin = some origin)).map Replica.node := by
  -- The table grows along the fold, so it is generalised; each step adds to one group at most.
  induction replicas generalizing t with
  | nil => simp
  | cons r rest ih =>
    rw [List.foldl_cons, ih]
    cases hOrigin : r.origin with
    | none => simp [hOrigin]
    | some o =>
      by_cases ho : o = origin
      · subst ho
        simp [hOrigin]
      · have hne : origin ≠ o := fun h => ho h.symm
        simp [hOrigin, ho, Table.get?_insert, hne]

/-- The group of an origin holds the nodes of its replicas, in their order. -/
theorem getD_get?_holders (replicas : List Replica) (origin : NodeId) :
    ((holders replicas).get? origin).getD [] =
      (replicas.filter (fun r => r.origin = some origin)).map Replica.node := by
  have h := getD_get?_foldl_holders replicas .empty origin
  rw [Table.get?_empty, Option.getD_none, List.nil_append] at h
  exact h

/-- A group is as large as its origin is frequent. -/
theorem length_getD_get?_holders (replicas : List Replica) (origin : NodeId) :
    (((holders replicas).get? origin).getD []).length =
      (replicas.filterMap Replica.origin).count origin := by
  rw [getD_get?_holders, List.length_map, List.count_filterMap, ← List.countP_eq_length_filter]
  congr 1
  funext r
  by_cases h : r.origin = some origin <;> simp [h]

/-- The set is clean when no group has two members. -/
theorem isAmbiguous_ofReplicas_eq_false (replicas : List Replica) :
    (ofReplicas replicas).isAmbiguous = false ↔
      ∀ origin, (((holders replicas).get? origin).getD []).length ≤ 1 := by
  have hEmpty : (ofReplicas replicas).isAmbiguous = false ↔
      ((holders replicas).filter (fun _ nodes => 1 < nodes.length)).isEmpty = true := by
    simp only [ofReplicas]
    split <;> simp_all [isAmbiguous]
  rw [hEmpty, Table.isEmpty_iff_get?]
  refine forall_congr' fun origin => ?_
  rw [Table.get?_filter]
  cases (holders replicas).get? origin with
  | none => simp
  | some nodes => simp [Option.filter]

/-- A set of replicas is clean exactly when no two of them, wherever they stand in the list, carry
one origin. -/
theorem isAmbiguous_ofReplicas_eq_false_iff_pairwise (replicas : List Replica) :
    (ofReplicas replicas).isAmbiguous = false ↔
      replicas.Pairwise (fun a b => ∀ o, a.origin = some o → b.origin ≠ some o) := by
  calc (ofReplicas replicas).isAmbiguous = false
      ↔ ∀ origin, (replicas.filterMap Replica.origin).count origin ≤ 1 := by
        simp only [isAmbiguous_ofReplicas_eq_false, length_getD_get?_holders]
    _ ↔ (replicas.filterMap Replica.origin).Nodup := List.nodup_iff_count.symm
    _ ↔ replicas.Pairwise (fun a b => ∀ o, a.origin = some o → b.origin ≠ some o) := by
        rw [List.Nodup, List.pairwise_filterMap]
        constructor
        · intro h
          refine h.imp fun hab o ha hb => ?_
          exact hab o ha o hb rfl
        · intro h
          refine h.imp fun hab o ha p hb heq => ?_
          exact hab o ha (heq ▸ hb)

end Origins

end ReplicaUpkeep
