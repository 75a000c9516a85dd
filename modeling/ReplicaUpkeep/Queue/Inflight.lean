import ReplicaUpkeep.Directive
import ReplicaUpkeep.Duration
import ReplicaUpkeep.Table

/-!
# Repairs in flight

How many repairs of each kind have been sent out for a container and are not yet known to have
landed.  Repairs sent at different times for one container and kind share one deadline, which is
moved by the latest of them; from the deadline on none of them counts any more.  Moments are readings
of a steady clock, in nanoseconds; its seconds are signed words, and a deadline behind the last of them
cannot be set.
-/

namespace ReplicaUpkeep

/-- What repairs in flight are counted by. -/
abbrev RepairKey := OrderedPair ContainerId DirectiveKind

/-- Repairs in flight that lapse together. -/
structure Flight where
  count : UInt64
  /-- The first moment at which the repairs no longer count. -/
  deadline : Nat
  deriving DecidableEq, Repr

/-- Every repair in flight. -/
structure Inflight where
  flights : Table RepairKey Flight
  deriving Repr

namespace Inflight

/-- Nothing in flight. -/
def empty : Inflight where
  flights := .empty

/-- Change what is in flight of one kind for one container. -/
def change (f : Inflight) (id : ContainerId) (kind : DirectiveKind) (flight : Option Flight) :
    Inflight where
  flights :=
    match flight with
    | none => f.flights.erase ⟨id, kind⟩
    | some flight => f.flights.insert ⟨id, kind⟩ flight

/-- How many repairs count at a moment; a flight that has lapsed is dropped by asking. -/
def current (f : Inflight) (id : ContainerId) (kind : DirectiveKind) (now : Nat) :
    UInt64 × Inflight :=
  match f.flights.get? ⟨id, kind⟩ with
  | none => (0, f)
  | some flight =>
    if now < flight.deadline then (flight.count, f) else (0, f.change id kind none)

/-- The repairs that a new one joins: none when they have lapsed. -/
def countAt (flight : Flight) (now : Nat) : UInt64 :=
  if now < flight.deadline then flight.count else 0

/-- Can the clock show the deadline of what is sent at a moment, to lapse after a time? -/
def InRange (now : Nat) (ttl : Duration) : Prop :=
  (now + ttl.totalNanos) / 1000000000 < Text.signedLimit

instance (now : Nat) (ttl : Duration) : Decidable (InRange now ttl) :=
  inferInstanceAs (Decidable (_ < _))

/-- Count repairs sent at a moment, to lapse after a time together with those already in flight.
Sending none changes nothing, not even the deadline. -/
def record (f : Inflight) (id : ContainerId) (kind : DirectiveKind) (count : UInt64) (now : Nat)
    (ttl : Duration) : Inflight :=
  if count = 0 then f
  else
    let before := (f.flights.get? ⟨id, kind⟩).elim 0 (countAt · now)
    f.change id kind (some { count := before + count, deadline := now + ttl.totalNanos })

/-- Let no more repairs count than are still needed. -/
def trim (f : Inflight) (id : ContainerId) (kind : DirectiveKind) (needed : Nat) : Inflight :=
  if needed = 0 then f.change id kind none
  else
    match f.flights.get? ⟨id, kind⟩ with
    | none => f
    | some flight =>
      if needed < flight.count.toNat then
        f.change id kind (some { flight with count := UInt64.ofNat needed })
      else f

/-- Forget what is in flight for a container. -/
def forget (f : Inflight) (id : ContainerId) : Inflight where
  flights := f.flights.filter (fun key _ => key.major ≠ id)

end Inflight

end ReplicaUpkeep
