import ReplicaUpkeep.Plan.Pruning
import ReplicaUpkeep.Proofs.Snapshot.Selection

/-!
# Choosing what to delete

The planner of deletes collects candidates, puts them in an order and takes from the front.  Here is
what each of these three steps keeps: candidates are sealed replicas on nodes that answer and live, the
order only reorders them, and taking passes over some but neither invents nor repeats any.

Taking stops at the number asked for and spares one holder of the highest sequence.  Where it comes
short, whoever is left out was spared for that.
-/

namespace ReplicaUpkeep.Plan

theorem mem_candidates (lookup : NodeLookup) (s : Snapshot) (r : Replica) :
    r ∈ candidates lookup s ↔
      (r ∈ s.replicas ∧ r.state ∈ ReplicaState.sealed) ∧
        ∃ status, lookup r.node = some status ∧ status.health ≠ .dead := by
  rw [candidates, List.mem_filter, Selector.sealed, s.mem_select_inStates]
  simp [Option.any_eq_true, NodeStatus.canReceive]

theorem candidates_sublist (lookup : NodeLookup) (s : Snapshot) :
    (candidates lookup s).Sublist s.replicas :=
  List.filter_sublist.trans List.filter_sublist

/-- The order of deletion is an order of the candidates. -/
theorem deletionOrder_perm (replicas : List Replica) :
    (deletionOrder replicas).Perm replicas := by
  let kept := representatives replicas
  let sorted := Order.sortBy goesBefore replicas
  have hSplit : (sorted.filter (fun r => kept.contains r.node) ++
      sorted.filter (fun r => !kept.contains r.node)).Perm sorted :=
    List.filter_append_perm _ _
  exact (List.perm_append_comm.trans hSplit).trans (Order.perm_sortBy _ _)

/-- What is chosen stands in the list, in the same order. -/
theorem choose_sublist (maxSequence : UInt64) (n holders : Nat) (l : List Replica) :
    (choose maxSequence n holders l).Sublist l := by
  -- Only the last holder of the highest sequence is passed over.
  fun_induction choose maxSequence n holders l with
  | case1 => exact List.nil_sublist _
  | case2 => exact List.nil_sublist _
  | case3 n holders r rest hMax hLast ih => exact ih.cons r
  | case4 n holders r rest hMax hMore ih => exact ih.cons_cons r
  | case5 n holders r rest hBehind ih => exact ih.cons_cons r

/-- No more are chosen than asked for. -/
theorem length_choose_le (maxSequence : UInt64) (n holders : Nat) (l : List Replica) :
    (choose maxSequence n holders l).length ≤ n := by
  fun_induction choose maxSequence n holders l with
  | case1 => exact Nat.le_refl 0
  | case2 => exact Nat.zero_le _
  | case3 n holders r rest hMax hLast ih => exact ih
  | case4 n holders r rest hMax hMore ih => exact Nat.succ_le_succ ih
  | case5 n holders r rest hBehind ih => exact Nat.succ_le_succ ih

/-- One of the holders of the highest sequence is always left out. -/
theorem countP_latest_choose_le (maxSequence : UInt64) (n holders : Nat) (l : List Replica) :
    (choose maxSequence n holders l).countP (fun r => r.sequence = maxSequence) ≤ holders - 1 := by
  fun_induction choose maxSequence n holders l with
  | case1 => exact Nat.zero_le _
  | case2 => exact Nat.zero_le _
  | case3 n holders r rest hMax hLast ih => exact ih
  | case4 n holders r rest hMax hMore ih =>
    rw [List.countP_cons_of_pos (by simpa using hMax)]
    omega
  | case5 n holders r rest hBehind ih =>
    rw [List.countP_cons_of_neg (by simpa using hBehind)]
    exact ih

/-- A front part that has no holder, or leaves one outside, is taken as it stands. -/
theorem choose_append {maxSequence : UInt64} {n holders : Nat} {front l : List Replica}
    (h : front.countP (fun r => r.sequence = maxSequence) = 0 ∨
      front.countP (fun r => r.sequence = maxSequence) < holders) :
    choose maxSequence n holders (front ++ l) = front.take n ++
      choose maxSequence (n - front.length)
        (holders - front.countP (fun r => r.sequence = maxSequence)) l := by
  induction front generalizing n holders with
  | nil => simp
  | cons r rest ih =>
    cases n with
    | zero => simp [choose]
    | succ n =>
      rw [List.cons_append, choose, List.take_succ_cons, List.length_cons, Nat.succ_sub_succ]
      by_cases hMax : r.sequence = maxSequence
      · rw [List.countP_cons_of_pos (by simpa using hMax)] at h ⊢
        rw [if_pos hMax, if_neg (by omega), ih (by omega), List.cons_append, Nat.sub_sub,
          Nat.add_comm 1]
      · rw [List.countP_cons_of_neg (by simpa using hMax)] at h ⊢
        rw [if_neg hMax, ih h, List.cons_append]

theorem choose_nil (maxSequence : UInt64) (n holders : Nat) :
    choose maxSequence n holders [] = [] := by
  cases n <;> rfl

/-- Where no holder stands in the list, or one stands outside, nobody is passed over. -/
theorem choose_eq_take {maxSequence : UInt64} {n holders : Nat} {l : List Replica}
    (h : l.countP (fun r => r.sequence = maxSequence) = 0 ∨
      l.countP (fun r => r.sequence = maxSequence) < holders) :
    choose maxSequence n holders l = l.take n := by
  have hTaken := choose_append (n := n) (l := []) h
  rwa [List.append_nil, choose_nil, List.append_nil] at hTaken

/-- When too few are chosen, whoever is left out was passed over as the last holder. -/
theorem latest_of_not_mem_choose {maxSequence : UInt64} {n holders : Nat} {l : List Replica}
    (hShort : (choose maxSequence n holders l).length < n) {r : Replica} (hr : r ∈ l)
    (hLeft : r ∉ choose maxSequence n holders l) :
    r.sequence = maxSequence ∧
      holders ≤ (choose maxSequence n holders l).countP (fun r => r.sequence = maxSequence) + 1 := by
  -- The number of holders falls with each one taken, so both are followed together.
  fun_induction choose maxSequence n holders l with
  | case1 => omega
  | case2 => cases hr
  | case3 n holders q rest hMax hLast ih =>
    rcases List.mem_cons.1 hr with rfl | hRest
    · exact ⟨hMax, by omega⟩
    · exact ih hShort hRest hLeft
  | case4 n holders q rest hMax hMore ih =>
    obtain ⟨hNe, hNot⟩ := List.ne_and_not_mem_of_not_mem_cons hLeft
    have hRest : r ∈ rest := (List.mem_cons.1 hr).resolve_left hNe
    obtain ⟨hLatest, hHolders⟩ := ih (Nat.lt_of_succ_lt_succ hShort) hRest hNot
    rw [List.countP_cons_of_pos (by simpa using hMax)]
    exact ⟨hLatest, by omega⟩
  | case5 n holders q rest hBehind ih =>
    obtain ⟨hNe, hNot⟩ := List.ne_and_not_mem_of_not_mem_cons hLeft
    have hRest : r ∈ rest := (List.mem_cons.1 hr).resolve_left hNe
    rw [List.countP_cons_of_neg (by simpa using hBehind)]
    exact ih (Nat.lt_of_succ_lt_succ hShort) hRest hNot

/-- The last holder alone is never chosen. -/
theorem choose_eq_nil {maxSequence : UInt64} {n holders : Nat} {l : List Replica}
    (h : ∀ r ∈ l, r.sequence = maxSequence ∧ holders ≤ 1) : choose maxSequence n holders l = [] := by
  fun_induction choose maxSequence n holders l with
  | case1 => rfl
  | case2 => rfl
  | case3 n holders r rest hMax hLast ih => exact ih fun q hq => h q (List.mem_cons_of_mem _ hq)
  | case4 n holders r rest hMax hMore ih => exact absurd (h r List.mem_cons_self).2 hMore
  | case5 n holders r rest hBehind ih => exact absurd (h r List.mem_cons_self).1 hBehind

/-- The replicas that the plan deletes. -/
def chosen (lookup : NodeLookup) (s : Snapshot) (excess : Nat) : List Replica :=
  choose s.maxSequence excess (latestHolders s) (deletionOrder (candidates lookup s))

theorem directives_pruning (lookup : NodeLookup) (s : Snapshot) (excess : Nat) :
    (pruning lookup s excess).directives =
      (chosen lookup s excess).map (fun r => .delete s.id r.node) :=
  rfl

/-- Only candidates are deleted. -/
theorem mem_candidates_of_mem_chosen {lookup : NodeLookup} {s : Snapshot} {excess : Nat}
    {r : Replica} (h : r ∈ chosen lookup s excess) : r ∈ candidates lookup s :=
  (deletionOrder_perm _).mem_iff.1 ((choose_sublist _ _ _ _).subset h)

end ReplicaUpkeep.Plan
