import ReplicaUpkeep.Replica

/-!
# Selecting replicas

Predicates on replicas that can be combined and looked at: by state, by sequence, negated, or all of
several.  Conjunction keeps a selector flat where it can, so the shape of a combined selector depends
on how it was built; what it selects does not.
-/

namespace ReplicaUpkeep

/-- A predicate on replicas. -/
inductive Selector where
  | any
  | inStates (states : List ReplicaState)
  | atSequence (sequence : UInt64)
  | negation (inner : Selector)
  | all (parts : List Selector)
  deriving Repr

namespace Selector

mutual

/-- Does the selector choose the replica? -/
def selects : Selector → Replica → Bool
  | .any, _ => true
  | .inStates states, r => states.contains r.state
  | .atSequence sequence, r => r.sequence = sequence
  | .negation inner, r => !inner.selects r
  | .all parts, r => allSelect parts r

/-- Do all the selectors choose the replica? -/
def allSelect : List Selector → Replica → Bool
  | [], _ => true
  | s :: rest, r => s.selects r && allSelect rest r

end

/-- The selector of the replicas that both choose. -/
def both : Selector → Selector → Selector
  | .any, g => g
  | .all parts, g => .all (parts ++ [g])
  | f, g => .all [f, g]

/-- The selector of the replicas that this one leaves. -/
def negate (f : Selector) : Selector :=
  .negation f

/-- Replicas that count as capacity. -/
def good : Selector := .inStates ReplicaState.good

/-- Replicas that may still take writes. -/
def writable : Selector := .inStates ReplicaState.writable

/-- Replicas that stopped taking writes. -/
def sealed : Selector := .inStates ReplicaState.sealed

/-- Replicas that a closed container still expects to close. -/
def unfinalized : Selector := .inStates ReplicaState.unfinalized

/-- Replicas that are of no use as they are. -/
def unhealthy : Selector := .inStates [.unhealthy]

/-- Replicas that are closed. -/
def closed : Selector := .inStates [.closed]

theorem allSelect_eq_all (parts : List Selector) (r : Replica) :
    allSelect parts r = parts.all (fun f => f.selects r) := by
  induction parts with
  | nil => simp [allSelect]
  | cons f rest ih => simp [allSelect, ih]

/-- However it is built, a conjunction selects what both of its parts select. -/
theorem selects_both (f g : Selector) (r : Replica) :
    (f.both g).selects r = (f.selects r && g.selects r) := by
  cases f with
  | any => simp [both, selects]
  | all parts => simp [both, selects, allSelect_eq_all]
  | inStates states => simp [both, selects, allSelect]
  | atSequence sequence => simp [both, selects, allSelect]
  | negation inner => simp [both, selects, allSelect]

theorem selects_negate (f : Selector) (r : Replica) :
    f.negate.selects r = !f.selects r := by
  simp [negate, selects]

end Selector

end ReplicaUpkeep
