import ReplicaUpkeep.Replica

/-!
# Directives

What the control plane asks of nodes: to close a replica, to copy one, to delete one.  A directive
that was decided on but may not go out is withheld, with the reason.
-/

namespace ReplicaUpkeep

/-- What is asked. -/
inductive DirectiveKind where
  | close
  | replicate
  | delete
  deriving DecidableEq, Repr

namespace DirectiveKind

/-- Every kind, in the order in which a plan lists them. -/
def all : List DirectiveKind := [.close, .replicate, .delete]

/-- The name of a kind. -/
def name : DirectiveKind → String
  | .close => "close"
  | .replicate => "replicate"
  | .delete => "delete"

/-- The kind of a name. -/
def ofName? (s : String) : Option DirectiveKind :=
  all.find? (fun k => k.name = s)

/-- The place of a kind among all kinds. -/
def rank : DirectiveKind → Nat
  | .close => 0
  | .replicate => 1
  | .delete => 2

instance : LE DirectiveKind := ⟨fun a b => a.rank ≤ b.rank⟩

instance : LT DirectiveKind := ⟨fun a b => a.rank < b.rank⟩

instance : DecidableLT DirectiveKind := fun a b => inferInstanceAs (Decidable (a.rank < b.rank))

instance : Std.IsLinearOrder DirectiveKind :=
  Order.isLinearOrder_of_injective rank (fun _ _ => Iff.rfl) (by
    intro a b
    cases a <;> cases b <;> simp [rank])

instance : Std.LawfulOrderLT DirectiveKind :=
  Order.lawfulOrderLT_of_reading rank (fun _ _ => Iff.rfl) (fun _ _ => Iff.rfl)

theorem ofName?_name (k : DirectiveKind) : ofName? k.name = some k := by
  cases k <;> decide

end DirectiveKind

/-- One request about a container. -/
structure Directive where
  kind : DirectiveKind
  container : ContainerId
  /-- The node that has to act. -/
  target : Option NodeId
  /-- The node to copy from. -/
  source : Option NodeId
  deriving DecidableEq, Repr

namespace Directive

/-- Close the replica on a node. -/
def close (id : ContainerId) (target : NodeId) : Directive where
  kind := .close
  container := id
  target := some target
  source := none

/-- Make one more copy, from a given node or from any. -/
def replicate (id : ContainerId) (source : Option NodeId) : Directive where
  kind := .replicate
  container := id
  target := none
  source := source

/-- Delete the replica on a node. -/
def delete (id : ContainerId) (target : NodeId) : Directive where
  kind := .delete
  container := id
  target := some target
  source := none

/-- The directive as one line for people. -/
def render (d : Directive) : String :=
  d.kind.name ++ " " ++ d.container.render ++
    (d.target.elim "" (" on " ++ ·)) ++ (d.source.elim "" (" from " ++ ·))

end Directive

/-- Why a directive does not go out. -/
inductive WithholdReason where
  /-- The registry could not answer for the node. -/
  | registryUnavailable
  | nodeDead
  /-- Another node to close lies on a host that stays. -/
  | decommissioningHost
  /-- No replica can serve as the source of a copy. -/
  | noSource
  deriving DecidableEq, Repr

namespace WithholdReason

/-- Every reason. -/
def all : List WithholdReason :=
  [.registryUnavailable, .nodeDead, .decommissioningHost, .noSource]

/-- The name of a reason. -/
def name : WithholdReason → String
  | .registryUnavailable => "registry_unavailable"
  | .nodeDead => "node_dead"
  | .decommissioningHost => "decommissioning_host"
  | .noSource => "no_source"

/-- The wording of a reason. -/
def message : WithholdReason → String
  | .registryUnavailable => "registry unavailable"
  | .nodeDead => "node dead"
  | .decommissioningHost => "decommissioning host"
  | .noSource => "no copy source"

end WithholdReason

/-- A directive that was decided on and does not go out. -/
structure Withheld where
  kind : DirectiveKind
  node : Option NodeId
  reason : WithholdReason
  deriving DecidableEq, Repr

/-- What one round asks of a container's nodes. -/
structure Plan where
  directives : List Directive
  withheld : List Withheld
  deriving DecidableEq, Repr

namespace Plan

/-- The plan that asks nothing. -/
def empty : Plan := { directives := [], withheld := [] }

instance : Append Plan where
  append p q := {
    directives := p.directives ++ q.directives
    withheld := p.withheld ++ q.withheld }

/-- The directives of a kind, in order. -/
def ofKind (directives : List Directive) (kind : DirectiveKind) : List Directive :=
  directives.filter (fun d => d.kind = kind)

/-- How many directives of a kind there are. -/
def countOf (directives : List Directive) (kind : DirectiveKind) : Nat :=
  (ofKind directives kind).length

end Plan

end ReplicaUpkeep
