import ReplicaUpkeep.Order
import ReplicaUpkeep.Text.Numeral

/-!
# Containers

A container is the unit that is replicated: a number, a stage of its life, the count of replicas it
should have and the last write sequence that its write quorum acknowledged.
-/

namespace ReplicaUpkeep

/-- The number of a container. -/
structure ContainerId where
  number : UInt64
  deriving DecidableEq, Repr

namespace ContainerId

instance : LE ContainerId := ⟨fun a b => a.number ≤ b.number⟩

instance : LT ContainerId := ⟨fun a b => a.number < b.number⟩

instance : DecidableLE ContainerId := fun a b => inferInstanceAs (Decidable (a.number ≤ b.number))

instance : DecidableLT ContainerId := fun a b => inferInstanceAs (Decidable (a.number < b.number))

instance : Std.IsLinearOrder ContainerId :=
  Order.isLinearOrder_of_injective ContainerId.number (fun _ _ => Iff.rfl) (by
    intro a b h
    cases a
    cases b
    simpa using h)

instance : Std.LawfulOrderLT ContainerId :=
  Order.lawfulOrderLT_of_reading ContainerId.number (fun _ _ => Iff.rfl) (fun _ _ => Iff.rfl)

/-- A container as it is named to people. -/
def render (id : ContainerId) : String :=
  "#" ++ String.ofList (Text.decimal id.number.toNat)

end ContainerId

/-- The stages of a container's life. -/
inductive ContainerState where
  | opened
  | closing
  /-- Closed by some replicas without the agreement of all. -/
  | quasiClosed
  | closed
  | deleting
  | deleted
  deriving DecidableEq, Repr

namespace ContainerState

/-- Every stage, in the order of a life. -/
def all : List ContainerState :=
  [.opened, .closing, .quasiClosed, .closed, .deleting, .deleted]

/-- The name of a stage in reports and images. -/
def name : ContainerState → String
  | .opened => "OPEN"
  | .closing => "CLOSING"
  | .quasiClosed => "QUASI_CLOSED"
  | .closed => "CLOSED"
  | .deleting => "DELETING"
  | .deleted => "DELETED"

/-- The stage of a name. -/
def ofName? (s : String) : Option ContainerState :=
  all.find? (fun c => c.name = s)

/-- Does capacity repair apply at this stage? -/
def isRepairable : ContainerState → Bool
  | .quasiClosed | .closed => true
  | _ => false

/-- Is the container on its way out? -/
def isBeingDeleted : ContainerState → Bool
  | .deleting | .deleted => true
  | _ => false

theorem ofName?_name (c : ContainerState) : ofName? c.name = some c := by
  cases c <;> decide

end ContainerState

/-- The control plane's view of a container. -/
structure Container where
  id : ContainerId
  state : ContainerState
  /-- The count of good replicas to keep. -/
  factor : UInt64
  /-- The last sequence acknowledged by the write quorum. -/
  sequence : UInt64
  deriving DecidableEq, Repr

end ReplicaUpkeep
