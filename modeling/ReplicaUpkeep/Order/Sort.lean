/-!
# Stable insertion sort

Sorting by a test `le` that says when one item may stand before another.  Items that the test cannot
tell apart keep their order.  The sort is structural, so that it can be evaluated in proofs; it is
meant for lists of the length of one replica set.
-/

namespace ReplicaUpkeep.Order

variable {α : Type}

/-- Put an item in front of the first item that it may precede. -/
def insertBy (le : α → α → Bool) (x : α) : List α → List α
  | [] => [x]
  | y :: rest => if le x y then x :: y :: rest else y :: insertBy le x rest

/-- Sort a list; equals keep their order. -/
def sortBy (le : α → α → Bool) (l : List α) : List α :=
  l.foldr (insertBy le) []

theorem perm_insertBy (le : α → α → Bool) (x : α) (l : List α) :
    (insertBy le x l).Perm (x :: l) := by
  induction l with
  | nil => exact List.Perm.refl _
  | cons y rest ih =>
    simp only [insertBy]
    split
    · exact List.Perm.refl _
    · exact (ih.cons y).trans (List.Perm.swap x y rest)

/-- Sorting only reorders. -/
theorem perm_sortBy (le : α → α → Bool) (l : List α) : (sortBy le l).Perm l := by
  induction l with
  | nil => exact List.Perm.refl _
  | cons x rest ih => exact (perm_insertBy le x _).trans (ih.cons x)

@[simp]
theorem mem_sortBy (le : α → α → Bool) (l : List α) (x : α) : x ∈ sortBy le l ↔ x ∈ l :=
  (perm_sortBy le l).mem_iff

theorem pairwise_insertBy {le : α → α → Bool}
    (trans : ∀ a b c, le a b = true → le b c = true → le a c = true)
    (total : ∀ a b, le a b = true ∨ le b a = true) (x : α) {l : List α}
    (h : l.Pairwise (fun a b => le a b = true)) :
    (insertBy le x l).Pairwise (fun a b => le a b = true) := by
  induction l with
  | nil => simp [insertBy]
  | cons y rest ih =>
    rw [List.pairwise_cons] at h
    simp only [insertBy]
    split
    · rename_i hxy
      rw [List.pairwise_cons, List.pairwise_cons]
      refine ⟨fun z hz => ?_, h⟩
      rcases List.mem_cons.1 hz with rfl | hr
      · exact hxy
      · exact trans _ _ _ hxy (h.1 z hr)
    · rename_i hxy
      rw [List.pairwise_cons]
      refine ⟨fun z hz => ?_, ih h.2⟩
      rcases List.mem_cons.1 ((perm_insertBy le x rest).mem_iff.1 hz) with rfl | hr
      · exact (total z y).resolve_left hxy
      · exact h.1 z hr

/-- The sorted list is in order. -/
theorem pairwise_sortBy (le : α → α → Bool)
    (trans : ∀ a b c, le a b = true → le b c = true → le a c = true)
    (total : ∀ a b, le a b = true ∨ le b a = true) (l : List α) :
    (sortBy le l).Pairwise (fun a b => le a b = true) := by
  induction l with
  | nil => exact List.Pairwise.nil
  | cons x rest ih => exact pairwise_insertBy trans total x ih

/-- A list that is in order stays as it is. -/
theorem sortBy_eq_self {le : α → α → Bool} {l : List α}
    (h : l.Pairwise (fun a b => le a b = true)) : sortBy le l = l := by
  induction l with
  | nil => rfl
  | cons x rest ih =>
    obtain ⟨hFirst, hRest⟩ := List.pairwise_cons.1 h
    change insertBy le x (sortBy le rest) = x :: rest
    rw [ih hRest]
    cases rest with
    | nil => rfl
    | cons y rest => rw [insertBy, if_pos (hFirst y List.mem_cons_self)]

end ReplicaUpkeep.Order
