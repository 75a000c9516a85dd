import ReplicaUpkeep.Directive
import ReplicaUpkeep.Table

/-!
# Containers that wait for repair

A waiting line for containers with too few or too many replicas.  A container stands in it at most
once for each of the two imbalances.  The line is ordered by imbalance, then by priority, then by
arrival; a container that is already there keeps the place it has.  The line is kept twice, by place
and by container, and both are changed together.
-/

namespace ReplicaUpkeep

/-- The two ways in which the count of good replicas is off. -/
inductive Imbalance where
  | shortage
  | surplus
  deriving DecidableEq, Repr

namespace Imbalance

/-- Both imbalances, the more urgent first. -/
def all : List Imbalance := [.shortage, .surplus]

/-- The name of an imbalance. -/
def name : Imbalance → String
  | .shortage => "under_replicated"
  | .surplus => "over_replicated"

/-- The imbalance of a name. -/
def ofName? (s : String) : Option Imbalance :=
  all.find? (fun i => i.name = s)

/-- The kind of directive that repairs an imbalance. -/
def repair : Imbalance → DirectiveKind
  | .shortage => .replicate
  | .surplus => .delete

/-- Too few replicas come before too many. -/
def rank : Imbalance → Nat
  | .shortage => 0
  | .surplus => 1

instance : LE Imbalance := ⟨fun a b => a.rank ≤ b.rank⟩

instance : LT Imbalance := ⟨fun a b => a.rank < b.rank⟩

instance : DecidableLT Imbalance := fun a b => inferInstanceAs (Decidable (a.rank < b.rank))

instance : Std.IsLinearOrder Imbalance :=
  Order.isLinearOrder_of_injective rank (fun _ _ => Iff.rfl) (by
    intro a b
    cases a <;> cases b <;> simp [rank])

instance : Std.LawfulOrderLT Imbalance :=
  Order.lawfulOrderLT_of_reading rank (fun _ _ => Iff.rfl) (fun _ _ => Iff.rfl)

theorem ofName?_name (i : Imbalance) : ofName? i.name = some i := by
  cases i <;> decide

end Imbalance

/-- A place in the line: imbalance, priority, ticket. -/
abbrev Place := OrderedPair Imbalance (OrderedPair UInt32 Nat)

/-- What waits: a container with one imbalance. -/
abbrev Member := OrderedPair ContainerId Imbalance

/-- A container as it leaves the line. -/
structure Waiter where
  container : ContainerId
  imbalance : Imbalance
  priority : UInt32
  deriving DecidableEq, Repr

/-- The line, by place and by container, with the next ticket to give out. -/
structure WaitingLine where
  ordered : Table Place ContainerId
  members : Table Member Place
  nextTicket : Nat
  deriving Repr

namespace WaitingLine

/-- The line in which nothing waits. -/
def empty : WaitingLine where
  ordered := .empty
  members := .empty
  nextTicket := 0

/-- Does a container wait with an imbalance? -/
def contains (l : WaitingLine) (id : ContainerId) (i : Imbalance) : Bool :=
  l.members.contains ⟨id, i⟩

/-- How many containers wait with an imbalance. -/
def count (l : WaitingLine) (i : Imbalance) : Nat :=
  (l.members.filter (fun m _ => m.minor = i)).size

/-- Does nothing wait? -/
def isEmpty (l : WaitingLine) : Bool :=
  l.members.isEmpty

/-- Put a container into the line, unless it waits with this imbalance already.  Tells whether it was
put there. -/
def join (l : WaitingLine) (id : ContainerId) (i : Imbalance) (priority : UInt32) :
    Bool × WaitingLine :=
  if l.contains id i then (false, l)
  else
    let place : Place := ⟨i, ⟨priority, l.nextTicket⟩⟩
    (true, {
      ordered := l.ordered.insert place id
      members := l.members.insert ⟨id, i⟩ place
      nextTicket := l.nextTicket + 1 })

/-- Take a container with an imbalance out of the line.  Tells whether it was there. -/
def leave (l : WaitingLine) (id : ContainerId) (i : Imbalance) : Bool × WaitingLine :=
  match l.members.get? ⟨id, i⟩ with
  | none => (false, l)
  | some place =>
    (true, { l with ordered := l.ordered.erase place, members := l.members.erase ⟨id, i⟩ })

/-- The first of the line and the line behind it. -/
def next? (l : WaitingLine) : Option (Waiter × WaitingLine) :=
  l.ordered.popFirst?.map (fun ((place, id), rest) =>
    (⟨id, place.major, place.minor.major⟩,
      { l with ordered := rest, members := l.members.erase ⟨id, place.major⟩ }))

/-- Up to a number of containers from the front, and the line behind them. -/
def batch : Nat → WaitingLine → List Waiter × WaitingLine
  | 0, l => ([], l)
  | n + 1, l =>
    match l.next? with
    | none => ([], l)
    | some (w, rest) =>
      let taken := batch n rest
      (w :: taken.1, taken.2)

/-- All that waits, in order. -/
def toList (l : WaitingLine) : List Waiter :=
  l.ordered.entries.map (fun e => ⟨e.2, e.1.major, e.1.minor.major⟩)

end WaitingLine

end ReplicaUpkeep
