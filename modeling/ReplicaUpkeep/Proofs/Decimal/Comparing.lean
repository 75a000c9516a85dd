/-!
# Comparing doubles

Whether a double is at most another one is decided from sign, exponent and mantissa, case by case.  Here
every double that is a number gets a rank of three integers, and doubles compare as their ranks do, by the
side of zero first, then by the exponent, then by the mantissa.  What is not a number has no rank and is not
at most anything.

The two zeros share a rank, so doubles are not put in an order by this.  But ranks are, and that is enough
to pass from one comparison to the next.
-/

namespace ReplicaUpkeep.Decimal

open Float.Model

/-- Where a number stands among all numbers. -/
structure Rank where
  side : Int
  exponent : Int
  mantissa : Int

/-- One rank is not behind another. -/
def Rank.AtMost (p q : Rank) : Prop :=
  p.side < q.side ∨ p.side = q.side ∧
    (p.exponent < q.exponent ∨ p.exponent = q.exponent ∧ p.mantissa ≤ q.mantissa)

theorem Rank.AtMost.trans {p q r : Rank} (hpq : p.AtMost q) (hqr : q.AtMost r) : p.AtMost r := by
  unfold AtMost at *
  omega

/-- The rank of a double, if it is a number. -/
def rank? : UnpackedFloat → Option Rank
  | .notANumber => none
  | .infinity .negative => some ⟨-2, 0, 0⟩
  | .finite .negative mantissa exponent _ => some ⟨-1, -exponent, -mantissa⟩
  | .zero _ => some ⟨0, 0, 0⟩
  | .finite .positive mantissa exponent _ => some ⟨1, exponent, mantissa⟩
  | .infinity .positive => some ⟨2, 0, 0⟩

/-- Both are numbers, and one is not behind the other. -/
def AtMost : Option Rank → Option Rank → Prop
  | some p, some q => p.AtMost q
  | _, _ => False

theorem isLE_compare_then (e f : Int) (m n : Nat) :
    ((compare e f).then (compare m n)).isLE = true ↔ e < f ∨ e = f ∧ m ≤ n := by
  rw [Ordering.isLE_then_iff_or, Int.compare_eq_lt, Int.compare_eq_eq, Nat.isLE_compare]

/-- Below zero the larger magnitude comes first. -/
theorem isLE_swap_compare_then (e f : Int) (m n : Nat) :
    ((compare e f).then (compare m n)).swap.isLE = true ↔ f < e ∨ f = e ∧ n ≤ m := by
  rw [Ordering.swap_then, Int.compare_swap, Nat.compare_swap, isLE_compare_then]

theorem compare_sign (s t : UnpackedFloat.Sign) :
    compare s t =
      match s, t with
      | .negative, .positive => .lt
      | .positive, .negative => .gt
      | _, _ => .eq := by
  cases s <;> cases t <;> rfl

/-- Doubles compare as their ranks do. -/
theorem le_iff_atMost_rank? (a b : UnpackedFloat) :
    a.le b = true ↔ AtMost (rank? a) (rank? b) := by
  -- Only two numbers on the same side of zero leave anything to compare.
  rcases a with (_ | _) | _ | _ | ⟨_ | _, m, e, _⟩ <;>
    rcases b with (_ | _) | _ | _ | ⟨_ | _, n, f, _⟩ <;>
    dsimp only [UnpackedFloat.le, UnpackedFloat.compare, rank?, AtMost, Rank.AtMost, Option.any] <;>
    simp only [compare_sign, isLE_compare_then, isLE_swap_compare_then, Ordering.isLE_lt,
      Ordering.isLE_eq, Ordering.isLE_gt, Bool.false_eq_true, true_iff, false_iff, true_and] <;>
    omega

theorem le_iff (a b : Float) : a ≤ b ↔ AtMost (rank? a.toModel.unpack) (rank? b.toModel.unpack) := by
  rw [← le_iff_atMost_rank?]
  exact decide_eq_true_iff

theorem AtMost.trans {p q r : Option Rank} (hpq : AtMost p q) (hqr : AtMost q r) : AtMost p r := by
  cases p <;> cases q <;> cases r <;> first | exact Rank.AtMost.trans hpq hqr | trivial

/-- One comparison after another. -/
theorem float_le_trans {a b c : Float} (hab : a ≤ b) (hbc : b ≤ c) : a ≤ c :=
  (le_iff a c).2 (((le_iff a b).1 hab).trans ((le_iff b c).1 hbc))

theorem rank?_of_isNaN {a : UnpackedFloat} (h : a.isNaN = true) : rank? a = none := by
  cases a with
  | notANumber => rfl
  | infinity _ | zero _ | finite _ _ _ _ => cases h

/-- What is not a number is not at most anything. -/
theorem not_le_of_isNaN {a : Float} (h : a.isNaN = true) (b : Float) : ¬ a ≤ b := by
  rw [le_iff, rank?_of_isNaN h]
  exact id

end ReplicaUpkeep.Decimal
