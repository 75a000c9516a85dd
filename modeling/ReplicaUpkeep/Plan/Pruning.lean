import ReplicaUpkeep.Directive
import ReplicaUpkeep.Node
import ReplicaUpkeep.Snapshot
import ReplicaUpkeep.Table

/-!
# Planning deletes

Which replicas go when there are too many.  Only sealed replicas on nodes that answer and live are
candidates.  Empty ones go first, then those of lower sequence, then by node.  The best replica of
each origin goes only when no other candidate is left, and the last good holder of the highest
sequence never goes.  A sealed replica whose node cannot be looked up is withheld, whether or not it
would have been chosen.
-/

namespace ReplicaUpkeep.Plan

/-- The sealed replicas on nodes that answer and live. -/
def candidates (lookup : NodeLookup) (s : Snapshot) : List Replica :=
  (s.select .sealed).filter (fun r => (lookup r.node).any NodeStatus.canReceive)

/-- The sealed replicas whose nodes cannot be looked up. -/
def unreachable (lookup : NodeLookup) (s : Snapshot) : List Replica :=
  (s.select .sealed).filter (fun r => (lookup r.node).isNone)

/-- Is a replica more worth keeping than another: higher sequence, then with data, then by node? -/
def isWorthier (a b : Replica) : Bool :=
  b.sequence < a.sequence ||
    (a.sequence = b.sequence &&
      ((!a.isEmpty && b.isEmpty) || (a.isEmpty = b.isEmpty && a.node < b.node)))

/-- The replica most worth keeping of each origin. -/
def bestOfOrigins (replicas : List Replica) : Table NodeId Replica :=
  replicas.foldl
    (fun t r =>
      match r.origin with
      | none => t
      | some origin =>
        match t.get? origin with
        | none => t.insert origin r
        | some best => if isWorthier r best then t.insert origin r else t)
    .empty

/-- The nodes of the best replicas of all origins. -/
def representatives (replicas : List Replica) : List NodeId :=
  (bestOfOrigins replicas).values.map Replica.node

/-- May a replica be deleted before another: empty, then of lower sequence, then by node? -/
def goesBefore (a b : Replica) : Bool :=
  if a.isEmpty ≠ b.isEmpty then a.isEmpty
  else if a.sequence ≠ b.sequence then a.sequence < b.sequence
  else a.node ≤ b.node

/-- The candidates in the order of deletion, those that are not the best of an origin first. -/
def deletionOrder (candidates : List Replica) : List Replica :=
  let kept := representatives candidates
  let sorted := Order.sortBy goesBefore candidates
  sorted.filter (fun r => !kept.contains r.node) ++ sorted.filter (fun r => kept.contains r.node)

/-- Take replicas from the front until enough are chosen; a replica at the highest sequence is passed
over when no other holder of that sequence would be left. -/
def choose (maxSequence : UInt64) : Nat → Nat → List Replica → List Replica
  | 0, _, _ => []
  | _ + 1, _, [] => []
  | n + 1, holders, r :: rest =>
    if r.sequence = maxSequence then
      if holders ≤ 1 then choose maxSequence (n + 1) holders rest
      else r :: choose maxSequence n (holders - 1) rest
    else r :: choose maxSequence n holders rest

/-- How many good replicas have the highest sequence. -/
def latestHolders (s : Snapshot) : Nat :=
  s.count (Selector.good.both (.atSequence s.maxSequence))

/-- The plan that takes away replicas in excess. -/
def pruning (lookup : NodeLookup) (s : Snapshot) (excess : Nat) : Plan :=
  let chosen :=
    choose s.maxSequence excess (latestHolders s) (deletionOrder (candidates lookup s))
  { directives := chosen.map (fun r => .delete s.id r.node)
    withheld := (unreachable lookup s).map (fun r => ⟨.delete, some r.node, .registryUnavailable⟩) }

end ReplicaUpkeep.Plan
