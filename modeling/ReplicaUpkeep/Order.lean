/-!
# Orders on keys

Records are kept in key order throughout the library.  This module gives the two ways in which a
key type gets its linear order: pulled back along an injective reading of the key, and the
lexicographic order of a pair.  Only linear orders with a decidable `<` are provided; no notion of
weak or partial key order occurs.
-/

namespace ReplicaUpkeep.Order

/-- An order read off through an injective function is linear when its target is. -/
theorem isLinearOrder_of_injective {α β : Type} [LE α] [LE β] [Std.IsLinearOrder β] (f : α → β)
    (le_iff : ∀ a b : α, a ≤ b ↔ f a ≤ f b) (injective : ∀ a b : α, f a = f b → a = b) :
    Std.IsLinearOrder α where
  le_refl a := (le_iff a a).2 (Std.le_refl _)
  le_trans a b c hab hbc :=
    (le_iff a c).2 (Std.le_trans ((le_iff a b).1 hab) ((le_iff b c).1 hbc))
  le_antisymm a b hab hba :=
    injective a b (Std.le_antisymm ((le_iff a b).1 hab) ((le_iff b a).1 hba))
  le_total a b := by
    rw [le_iff a b, le_iff b a]
    exact Std.le_total

/-- The strict order read off through the same function agrees with the weak one. -/
theorem lawfulOrderLT_of_reading {α β : Type} [LE α] [LT α] [LE β] [LT β] [Std.LawfulOrderLT β]
    (f : α → β) (le_iff : ∀ a b : α, a ≤ b ↔ f a ≤ f b) (lt_iff : ∀ a b : α, a < b ↔ f a < f b) :
    Std.LawfulOrderLT α where
  lt_iff a b := by
    rw [lt_iff a b, le_iff a b, le_iff b a]
    exact Std.LawfulOrderLT.lt_iff _ _

end ReplicaUpkeep.Order

namespace ReplicaUpkeep

/-- A pair compared by its major part first and by its minor part within equal major parts. -/
structure OrderedPair (α β : Type) where
  major : α
  minor : β
  deriving DecidableEq, Repr

namespace OrderedPair

variable {α β : Type}

instance [LT α] [LT β] : LT (OrderedPair α β) where
  lt a b := a.major < b.major ∨ (a.major = b.major ∧ a.minor < b.minor)

instance [LT α] [LE β] : LE (OrderedPair α β) where
  le a b := a.major < b.major ∨ (a.major = b.major ∧ a.minor ≤ b.minor)

theorem lt_def [LT α] [LT β] (a b : OrderedPair α β) :
    a < b ↔ a.major < b.major ∨ (a.major = b.major ∧ a.minor < b.minor) :=
  Iff.rfl

theorem le_def [LT α] [LE β] (a b : OrderedPair α β) :
    a ≤ b ↔ a.major < b.major ∨ (a.major = b.major ∧ a.minor ≤ b.minor) :=
  Iff.rfl

instance [LT α] [LT β] [DecidableEq α] [DecidableLT α] [DecidableLT β] :
    DecidableLT (OrderedPair α β) :=
  fun a b => decidable_of_iff _ (lt_def a b).symm

instance [LT α] [LE β] [DecidableEq α] [DecidableLT α] [DecidableLE β] :
    DecidableLE (OrderedPair α β) :=
  fun a b => decidable_of_iff _ (le_def a b).symm

instance [LE α] [LT α] [Std.IsLinearOrder α] [Std.LawfulOrderLT α] [LE β] [Std.IsLinearOrder β] :
    Std.IsLinearOrder (OrderedPair α β) where
  le_refl a := by
    rw [le_def]
    exact Or.inr ⟨rfl, Std.le_refl _⟩
  le_trans a b c := by
    simp only [le_def]
    grind
  le_antisymm a b := by
    simp only [le_def]
    cases a
    cases b
    grind
  le_total a b := by
    simp only [le_def]
    grind

instance [LE α] [LT α] [Std.IsLinearOrder α] [Std.LawfulOrderLT α] [LE β] [LT β]
    [Std.LawfulOrderLT β] : Std.LawfulOrderLT (OrderedPair α β) where
  lt_iff a b := by
    simp only [le_def, lt_def, Std.LawfulOrderLT.lt_iff a.minor b.minor]
    grind

end OrderedPair

end ReplicaUpkeep
