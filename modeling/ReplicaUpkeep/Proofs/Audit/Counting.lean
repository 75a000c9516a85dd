import Mathlib.Data.List.Nodup
import Mathlib.Data.List.Perm.Basic
import ReplicaUpkeep.Table

/-!
# Counting by classes

A report counts the same things in several ways.  Here are the facts on counting that make its numbers
add up: a list is counted once if it is counted class by class, whatever classes nobody falls into, and a
table that holds each thing under its own key holds as many as there are.
-/

namespace ReplicaUpkeep

/-- The sum of some counts. -/
def total : List Nat → Nat
  | [] => 0
  | n :: rest => n + total rest

theorem total_perm {l m : List Nat} (h : l.Perm m) : total l = total m := by
  induction h with
  | nil => rfl
  | cons n _ ih => rw [total, total, ih]
  | swap a b l => simp only [total, Nat.add_left_comm]
  | trans _ _ ih₁ ih₂ => rw [ih₁, ih₂]

/-- Counts of nothing may be left out. -/
theorem total_filter_pos (l : List Nat) : total (l.filter (fun n => 0 < n)) = total l := by
  induction l with
  | nil => rfl
  | cons n rest ih =>
    by_cases hPos : 0 < n
    · simp [total, hPos, ih]
    · simp [total, ih, Nat.eq_zero_of_not_pos hPos]

/-- Where no count is above its bound, their sum is not above that of the bounds. -/
theorem total_map_le {α : Type} {f g : α → Nat} {l : List α} (h : ∀ a ∈ l, f a ≤ g a) :
    total (l.map f) ≤ total (l.map g) := by
  induction l with
  | nil => exact Nat.le_refl _
  | cons a rest ih =>
    rw [List.forall_mem_cons] at h
    simp only [List.map_cons, total]
    exact Nat.add_le_add h.1 (ih h.2)

/-- Counting class by class counts everything once. -/
theorem total_countP_eq_length {α κ : Type} [DecidableEq κ] (key : α → κ) {keys : List κ}
    (hDistinct : keys.Nodup) (l : List α) (hCovered : ∀ a ∈ l, key a ∈ keys) :
    total (keys.map fun k => l.countP (fun a => key a = k)) = l.length := by
  induction keys generalizing l with
  | nil =>
    have hNone : l = [] := List.eq_nil_iff_forall_not_mem.2 fun a ha => by
      simpa using hCovered a ha
    rw [hNone]
    rfl
  | cons k rest ih =>
    rw [List.nodup_cons] at hDistinct
    -- Whoever is not of the first class is counted in the others, and nobody else is.
    let others := l.filter (fun a => key a ≠ k)
    have hOthers : ∀ a ∈ others, key a ∈ rest := by
      intro a ha
      obtain ⟨hMem, hKey⟩ := List.mem_filter.1 ha
      exact (List.mem_cons.1 (hCovered a hMem)).resolve_left (by simpa using hKey)
    have hRest : (rest.map fun k => l.countP (fun a => key a = k)) =
        rest.map fun k => others.countP (fun a => key a = k) := by
      refine List.map_congr_left fun k' hk' => ?_
      have hNe : k' ≠ k := fun h => hDistinct.1 (h ▸ hk')
      rw [List.countP_filter]
      refine List.countP_congr fun a _ => ?_
      by_cases hKey : key a = k'
      · simp [hKey, hNe]
      · simp [hKey]
    have hSplit : l.length = l.countP (fun a => key a = k) + others.length := by
      rw [List.length_eq_countP_add_countP (fun a => decide (key a = k)), List.countP_eq_length_filter
        (p := fun a => decide ¬_)]
      simp [others]
    rw [List.map_cons, total, hRest, ih hDistinct.2 others hOthers, hSplit]

/-- Two numbers of each thing compare in one of three ways. -/
theorem countP_lt_add_countP_gt_add_countP_eq {α : Type} (f g : α → Nat) (l : List α) :
    l.countP (fun a => f a < g a) + l.countP (fun a => g a < f a) +
      l.countP (fun a => f a = g a) = l.length := by
  induction l with
  | nil => rfl
  | cons a rest ih =>
    simp only [List.countP_cons, List.length_cons, decide_eq_true_eq]
    split <;> split <;> split <;> omega

theorem countP_and_add_countP_and_not {α : Type} (p q : α → Bool) (l : List α) :
    l.countP (fun a => p a && q a) + l.countP (fun a => p a && !q a) = l.countP p := by
  rw [List.countP_eq_countP_filter_add l p q, List.countP_filter, List.countP_filter]

namespace Table

variable {κ α : Type} [LT κ] [LE κ] [Std.IsLinearOrder κ] [Std.LawfulOrderLT κ] [DecidableEq κ]

omit [DecidableEq κ] in
theorem entries_nodup (t : Table κ α) : t.entries.Nodup :=
  List.Nodup.of_map Prod.fst t.keys_nodup

/-- A table of things under their own keys lists each of them once. -/
theorem values_perm {t : Table κ α} {l : List α} {key : α → κ} (hDistinct : (l.map key).Nodup)
    (hHolds : ∀ k a, t.get? k = some a ↔ a ∈ l ∧ key a = k) : t.values.Perm l := by
  have hKeys : t.values.map key = t.keys := by
    rw [values, keys, List.map_map]
    refine List.map_congr_left fun e he => ?_
    exact ((hHolds e.1 e.2).1 ((mem_entries_iff t _ _).1 he)).2
  have hNodup : t.values.Nodup := List.Nodup.of_map key (hKeys ▸ t.keys_nodup)
  refine (List.perm_ext_iff_of_nodup hNodup (List.Nodup.of_map key hDistinct)).2 fun a => ?_
  simp only [mem_values_iff, hHolds, exists_and_left, exists_eq', and_true]

/-- A table of entries with distinct keys holds these entries. -/
theorem entries_ofList_perm [DecidableLT κ] {l : List (κ × α)} (h : (l.map Prod.fst).Nodup) :
    (ofList l).entries.Perm l := by
  refine (List.perm_ext_iff_of_nodup (entries_nodup _) (List.Nodup.of_map _ h)).2 fun e => ?_
  rw [mem_entries_iff (ofList l) e.1 e.2, get?_ofList h]

end Table

end ReplicaUpkeep
