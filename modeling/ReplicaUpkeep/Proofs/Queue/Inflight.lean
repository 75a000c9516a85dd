import ReplicaUpkeep.Queue

/-!
# What is in flight

The repairs in flight for one container and kind are one flight or none, and each operation touches
only the flights it names.  Here is what each of them leaves under a key, and how many repairs count at
a moment: a cap never raises that number, and recording adds to what still counts.

A count is a machine word, so recording may wrap; the number after it is never more than the sum.
-/

namespace ReplicaUpkeep

namespace Inflight

/-- How many repairs of a kind count for a container at a moment. -/
def number (f : Inflight) (id : ContainerId) (kind : DirectiveKind) (now : Nat) : Nat :=
  (f.current id kind now).1.toNat

/-- No more repairs in one flight than are needed, and no flight where none is. -/
def cap (needed : Nat) (flight : Option Flight) : Option Flight :=
  if needed = 0 then none
  else
    flight.map fun flight =>
      if needed < flight.count.toNat then { flight with count := UInt64.ofNat needed } else flight

@[simp] theorem cap_zero (flight : Option Flight) : cap 0 flight = none := by
  simp [cap]

/-- A flight within the need is left as it is. -/
theorem cap_eq_self {needed : Nat} {flight : Flight} (hNeeded : needed ≠ 0)
    (hWithin : flight.count.toNat ≤ needed) : cap needed (some flight) = some flight := by
  have hNot : ¬ needed < flight.count.toNat := by omega
  simp [cap, hNeeded, hNot]

section Lookup

variable (f : Inflight) (id : ContainerId) (kind : DirectiveKind) (key : RepairKey)

theorem get?_empty : empty.flights.get? key = none :=
  rfl

theorem get?_change (flight : Option Flight) :
    (f.change id kind flight).flights.get? key =
      if key = ⟨id, kind⟩ then flight else f.flights.get? key := by
  cases flight with
  | none => exact Table.get?_erase _ _ _
  | some flight => exact Table.get?_insert _ _ _ _

theorem current_fst (now : Nat) :
    (f.current id kind now).1 = (f.flights.get? ⟨id, kind⟩).elim 0 (countAt · now) := by
  rw [current]
  cases f.flights.get? ⟨id, kind⟩ with
  | none => rfl
  | some flight =>
    simp only [Option.elim_some, countAt]
    split <;> rfl

/-- Asking drops a flight that has lapsed and changes nothing else. -/
theorem get?_current (now : Nat) :
    (f.current id kind now).2.flights.get? key =
      if key = ⟨id, kind⟩ then (f.flights.get? key).filter (fun flight => now < flight.deadline)
      else f.flights.get? key := by
  rw [current]
  split
  · rename_i hNone
    split
    · rename_i hKey
      simp [hKey, hNone]
    · rfl
  · rename_i flight hFlight
    by_cases hKey : key = ⟨id, kind⟩
    · subst hKey
      by_cases hTime : now < flight.deadline
      · simp [hFlight, hTime, Option.filter]
      · simp [hFlight, hTime, get?_change, Option.filter]
    · by_cases hTime : now < flight.deadline
      · simp [hTime, hKey]
      · simp [hTime, hKey, get?_change]

theorem get?_record (count : UInt64) (now : Nat) (ttl : Duration) :
    (f.record id kind count now ttl).flights.get? key =
      if count ≠ 0 ∧ key = ⟨id, kind⟩ then
        some ⟨(f.current id kind now).1 + count, now + ttl.totalNanos⟩
      else f.flights.get? key := by
  rw [record, current_fst]
  by_cases hCount : count = 0
  · simp [hCount]
  · simp [hCount, get?_change]

theorem get?_trim (needed : Nat) :
    (f.trim id kind needed).flights.get? key =
      if key = ⟨id, kind⟩ then cap needed (f.flights.get? key) else f.flights.get? key := by
  rw [trim]
  split
  · rename_i hNeeded
    rw [get?_change, hNeeded, cap_zero]
  · rename_i hNeeded
    split
    · rename_i hNone
      split
      · rename_i hKey
        simp [hKey, hNone, cap]
      · rfl
    · rename_i flight hFlight
      by_cases hKey : key = ⟨id, kind⟩
      · subst hKey
        by_cases hMore : needed < flight.count.toNat
        · simp [hMore, get?_change, cap, hNeeded, hFlight]
        · simp [hMore, cap, hNeeded, hFlight]
      · by_cases hMore : needed < flight.count.toNat
        · simp [hMore, hKey, get?_change]
        · simp [hMore, hKey]

theorem get?_forget :
    (f.forget id).flights.get? key = if key.major = id then none else f.flights.get? key := by
  rw [forget, Table.get?_filter]
  by_cases hId : key.major = id
  · cases f.flights.get? key <;> simp [hId, Option.filter]
  · cases f.flights.get? key <;> simp [hId, Option.filter]

end Lookup

/-! ## How many count -/

theorem number_eq (f : Inflight) (id : ContainerId) (kind : DirectiveKind) (now : Nat) :
    f.number id kind now =
      (f.flights.get? ⟨id, kind⟩).elim 0 (fun flight =>
        if now < flight.deadline then flight.count.toNat else 0) := by
  rw [number, current_fst]
  cases f.flights.get? ⟨id, kind⟩ with
  | none => rfl
  | some flight =>
    simp only [Option.elim_some, countAt]
    split <;> rfl

/-- The number depends on the flight alone. -/
theorem number_congr {f g : Inflight} {id : ContainerId} {kind : DirectiveKind}
    (h : f.flights.get? ⟨id, kind⟩ = g.flights.get? ⟨id, kind⟩) (now : Nat) :
    f.number id kind now = g.number id kind now := by
  rw [number_eq, number_eq, h]

theorem number_of_get?_eq_none {f : Inflight} {id : ContainerId} {kind : DirectiveKind}
    (h : f.flights.get? ⟨id, kind⟩ = none) (now : Nat) : f.number id kind now = 0 := by
  rw [number_eq, h]
  rfl

theorem number_le_count {f : Inflight} {id : ContainerId} {kind : DirectiveKind} {flight : Flight}
    (h : f.flights.get? ⟨id, kind⟩ = some flight) (now : Nat) :
    f.number id kind now ≤ flight.count.toNat := by
  rw [number_eq, h, Option.elim_some]
  split
  · exact Nat.le_refl _
  · exact Nat.zero_le _

/-- Dropping a flight never raises the number. -/
theorem number_le_of_get?_eq_filter {f g : Inflight} {id : ContainerId} {kind : DirectiveKind}
    {p : Flight → Bool}
    (h : g.flights.get? ⟨id, kind⟩ = (f.flights.get? ⟨id, kind⟩).filter p) (now : Nat) :
    g.number id kind now ≤ f.number id kind now := by
  rw [number_eq, number_eq, h]
  cases f.flights.get? ⟨id, kind⟩ with
  | none => exact Nat.le_refl _
  | some flight => cases hp : p flight <;> simp [Option.filter, hp]

/-- Dropping a flight that has lapsed changes no number from then on. -/
theorem number_of_get?_eq_filter {f g : Inflight} {id : ContainerId} {kind : DirectiveKind}
    {now t : Nat}
    (h : g.flights.get? ⟨id, kind⟩ =
      (f.flights.get? ⟨id, kind⟩).filter fun flight => now < flight.deadline)
    (hLater : now ≤ t) : g.number id kind t = f.number id kind t := by
  rw [number_eq, number_eq, h]
  cases f.flights.get? ⟨id, kind⟩ with
  | none => rfl
  | some flight =>
    by_cases hTime : now < flight.deadline
    · simp [Option.filter, hTime]
    · have hLapsed : ¬ t < flight.deadline := by omega
      simp [Option.filter, hTime, hLapsed]

/-- Under a cap the number is the lesser of both. -/
theorem number_of_get?_eq_cap {f g : Inflight} {id : ContainerId} {kind : DirectiveKind}
    {needed : Nat} (h : g.flights.get? ⟨id, kind⟩ = cap needed (f.flights.get? ⟨id, kind⟩))
    (now : Nat) : g.number id kind now = min (f.number id kind now) needed := by
  rw [number_eq, number_eq, h, cap]
  by_cases hNeeded : needed = 0
  · simp [hNeeded]
  · rw [if_neg hNeeded]
    cases f.flights.get? ⟨id, kind⟩ with
    | none => simp
    | some flight =>
      by_cases hMore : needed < flight.count.toNat
      · have hWord : needed < 2 ^ 64 := Nat.lt_trans hMore flight.count.toNat_lt
        by_cases hTime : now < flight.deadline
        · simp only [Option.map_some, Option.elim_some, hMore, if_true, hTime,
            UInt64.toNat_ofNat', Nat.mod_eq_of_lt hWord]
          omega
        · simp [hMore, hTime]
      · by_cases hTime : now < flight.deadline
        · simp only [Option.map_some, Option.elim_some, hMore, if_false, hTime, if_true]
          omega
        · simp [hMore, hTime]

end Inflight

namespace RepairQueue

/-- How many repairs of a kind count for a container at a moment. -/
def inflightAt (q : RepairQueue) (id : ContainerId) (kind : DirectiveKind) (now : Nat) : Nat :=
  (q.current id kind now).1.toNat

theorem inflightAt_eq_number (q : RepairQueue) (id : ContainerId) (kind : DirectiveKind)
    (now : Nat) : q.inflightAt id kind now = q.inflight.number id kind now :=
  rfl

end RepairQueue

end ReplicaUpkeep
