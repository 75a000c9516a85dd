import ReplicaUpkeep.Order.Sort
import ReplicaUpkeep.Selector

/-!
# Snapshots of one container

A snapshot is a container with its live replicas at one moment, in the order of their nodes.  Every
decision about a container reads from one snapshot.  Deleted replicas are not live and never occur;
several replicas on one node can occur, since nothing here forbids them.
-/

namespace ReplicaUpkeep

/-- A container and its live replicas, in the order of their nodes. -/
structure Snapshot where
  container : Container
  replicas : List Replica
  live : ∀ r ∈ replicas, r.state ≠ .deleted
  ordered : replicas.Pairwise (fun a b => a.node ≤ b.node)
  deriving Repr

namespace Snapshot

/-- May a replica stand before another? -/
def nodeLe (a b : Replica) : Bool :=
  a.node ≤ b.node

/-- The live replicas of a list, in the order of their nodes. -/
def arrange (replicas : List Replica) : List Replica :=
  Order.sortBy nodeLe (replicas.filter (fun r => r.state ≠ .deleted))

theorem arrange_live (replicas : List Replica) : ∀ r ∈ arrange replicas, r.state ≠ .deleted := by
  intro r hr
  simp only [arrange, Order.mem_sortBy, List.mem_filter, decide_eq_true_eq] at hr
  exact hr.2

theorem arrange_ordered (replicas : List Replica) :
    (arrange replicas).Pairwise (fun a b => a.node ≤ b.node) := by
  have h := Order.pairwise_sortBy nodeLe
    (fun a b c hab hbc => by
      simp only [nodeLe, decide_eq_true_eq] at *
      exact Std.le_trans hab hbc)
    (fun a b => by
      simp only [nodeLe, decide_eq_true_eq]
      exact Std.le_total)
    (replicas.filter (fun r => r.state ≠ .deleted))
  exact h.imp (fun hab => by simpa [nodeLe] using hab)

/-- The snapshot of a container with these replicas, the deleted ones left out. -/
def of (container : Container) (replicas : List Replica) : Snapshot where
  container := container
  replicas := arrange replicas
  live := arrange_live replicas
  ordered := arrange_ordered replicas

/-- The container's number. -/
def id (s : Snapshot) : ContainerId := s.container.id

/-- The count of good replicas to keep. -/
def factor (s : Snapshot) : Nat := s.container.factor.toNat

/-- The number of live replicas. -/
def size (s : Snapshot) : Nat := s.replicas.length

/-- The replicas that a selector chooses, in order. -/
def select (s : Snapshot) (f : Selector) : List Replica :=
  s.replicas.filter f.selects

/-- The nodes of the replicas that a selector chooses, in order. -/
def nodesOf (s : Snapshot) (f : Selector) : List NodeId :=
  (s.select f).map Replica.node

/-- How many replicas a selector chooses. -/
def count (s : Snapshot) (f : Selector) : Nat :=
  (s.select f).length

/-- Does a selector choose any replica? -/
def any (s : Snapshot) (f : Selector) : Bool :=
  s.replicas.any f.selects

/-- The highest sequence of any live replica, usable or not; zero if there is none. -/
def maxSequence (s : Snapshot) : UInt64 :=
  s.replicas.foldl (fun m r => if m ≤ r.sequence then r.sequence else m) 0

theorem le_foldl_sequence (l : List Replica) (m : UInt64) :
    m ≤ l.foldl (fun m r => if m ≤ r.sequence then r.sequence else m) m := by
  induction l generalizing m with
  | nil => exact Std.le_refl m
  | cons r rest ih =>
    rw [List.foldl_cons]
    split
    · rename_i h
      exact Std.le_trans h (ih r.sequence)
    · exact ih m

theorem sequence_le_foldl {l : List Replica} {r : Replica} (hr : r ∈ l) (m : UInt64) :
    r.sequence ≤ l.foldl (fun m r => if m ≤ r.sequence then r.sequence else m) m := by
  induction l generalizing m with
  | nil => exact absurd hr List.not_mem_nil
  | cons q rest ih =>
    rw [List.foldl_cons]
    rcases List.mem_cons.1 hr with rfl | hrest
    · split
      · exact le_foldl_sequence rest r.sequence
      · rename_i h
        exact Std.le_trans ((Std.le_total).resolve_left h) (le_foldl_sequence rest m)
    · exact ih hrest _

/-- No live replica is ahead of the highest sequence. -/
theorem sequence_le_maxSequence (s : Snapshot) {r : Replica} (hr : r ∈ s.replicas) :
    r.sequence ≤ s.maxSequence :=
  sequence_le_foldl hr 0

theorem foldl_sequence_mem (l : List Replica) (m : UInt64) :
    l.foldl (fun m r => if m ≤ r.sequence then r.sequence else m) m = m ∨
      ∃ r ∈ l, r.sequence = l.foldl (fun m r => if m ≤ r.sequence then r.sequence else m) m := by
  induction l generalizing m with
  | nil => exact Or.inl rfl
  | cons q rest ih =>
    rw [List.foldl_cons]
    split
    · rcases ih q.sequence with h | ⟨r, hr, h⟩
      · exact Or.inr ⟨q, List.mem_cons_self, h.symm⟩
      · exact Or.inr ⟨r, List.mem_cons_of_mem _ hr, h⟩
    · rcases ih m with h | ⟨r, hr, h⟩
      · exact Or.inl h
      · exact Or.inr ⟨r, List.mem_cons_of_mem _ hr, h⟩

/-- Where there are live replicas, one of them has the highest sequence. -/
theorem exists_sequence_eq_maxSequence (s : Snapshot) (h : s.replicas ≠ []) :
    ∃ r ∈ s.replicas, r.sequence = s.maxSequence := by
  rcases foldl_sequence_mem s.replicas 0 with hzero | hmem
  · obtain ⟨r, hr⟩ := List.exists_mem_of_ne_nil _ h
    refine ⟨r, hr, ?_⟩
    have hle := s.sequence_le_maxSequence hr
    simp only [maxSequence] at hle ⊢
    rw [hzero] at hle ⊢
    exact Std.le_antisymm hle (UInt64.le_iff_toNat_le.2 (Nat.zero_le _))
  · exact hmem

/-- The snapshot without the replicas on the given nodes. -/
def without (s : Snapshot) (nodes : List NodeId) : Snapshot where
  container := s.container
  replicas := s.replicas.filter (fun r => !nodes.contains r.node)
  live := fun r hr => s.live r (List.mem_filter.1 hr).1
  ordered := s.ordered.sublist List.filter_sublist

end Snapshot

end ReplicaUpkeep
