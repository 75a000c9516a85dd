import Mathlib.Data.List.Induction
import ReplicaUpkeep.Proofs.Manager.Round

/-!
# What is delivered over many rounds

While a cluster stands still, its manager goes through rounds, and between them directives are taken out
of the outbox.  Repairs are held back by how many are in flight and not by which, so that nothing is
sent twice rests on this: as long as no flight lapses, the number in flight for a container is the
number of its repairs that were ever accepted, and each round goes on behind exactly as many.

Counts are machine words, so a container must not have more replicas than a word counts.  And the clock has
to be able to show the deadlines of what is sent.  A run in which each of them is checked as it is set is the
same run as far as it comes, and it comes to its end if all of them can be shown.
-/

namespace ReplicaUpkeep

/-- What happens while a cluster stands still. -/
inductive Tick where
  | round (now : Moment)
  /-- Up to a number of directives are taken out of the outbox. -/
  | collect (n : Nat)

namespace Tick

/-- The moment of a round. -/
def moment? : Tick → Option Moment
  | .round now => some now
  | .collect _ => none

/-- The moments of the rounds among ticks. -/
def moments (ticks : List Tick) : List Moment :=
  ticks.filterMap moment?

theorem moments_concat_round (past : List Tick) (now : Moment) :
    moments (past ++ [.round now]) = moments past ++ [now] := by
  simp [moments, moment?]

theorem moments_concat_collect (past : List Tick) (n : Nat) :
    moments (past ++ [.collect n]) = moments past := by
  simp [moments, moment?]

/-- Every round comes before the repairs of any earlier one lapse. -/
def Within (ttl : Duration) (ticks : List Tick) : Prop :=
  (moments ticks).Pairwise fun earlier later => later.steady < earlier.steady + ttl.totalNanos

instance (ttl : Duration) (ticks : List Tick) : Decidable (Within ttl ticks) :=
  inferInstanceAs (Decidable ((moments ticks).Pairwise _))

theorem Within.of_prefix {ttl : Duration} {past ticks : List Tick} (h : Within ttl ticks)
    (hPast : past <+: ticks) : Within ttl past :=
  List.Pairwise.sublist (hPast.filterMap moment?).sublist h

theorem Within.lt {ttl : Duration} {past : List Tick} {now : Moment}
    (h : Within ttl (past ++ [.round now])) :
    ∀ t ∈ moments past, now.steady < t.steady + ttl.totalNanos := by
  rw [Within, moments_concat_round, List.pairwise_append] at h
  exact fun t ht => h.2.2 t ht now List.mem_cons_self

end Tick

namespace Store

/-- No container has more replicas than a machine word counts. -/
def Countable (s : Store) : Prop :=
  ∀ id e, s.entries.get? id = some e → e.replicas.size < UInt64.size

theorem countable_iff (s : Store) :
    s.Countable ↔ ∀ e ∈ s.entries.values, e.replicas.size < UInt64.size := by
  constructor
  · intro h e he
    obtain ⟨id, hEntry⟩ := (Table.mem_values_iff _ e).1 he
    exact h id e hEntry
  · intro h id e hEntry
    exact h e ((Table.mem_values_iff _ e).2 ⟨id, hEntry⟩)

instance (s : Store) : Decidable s.Countable :=
  decidable_of_iff _ s.countable_iff.symm

theorem length_replicas_snapshotOf_le (e : StoreEntry) :
    (snapshotOf e).replicas.length ≤ e.replicas.size := by
  have hPerm := (Order.perm_sortBy Snapshot.nodeLe
    ((e.replicas.entries.map fun r => r.2.toReplica r.1).filter fun r => r.state ≠ .deleted)).length_eq
  have hFilter := List.length_filter_le (fun r : Replica => r.state ≠ .deleted)
    (e.replicas.entries.map fun r => r.2.toReplica r.1)
  rw [List.length_map] at hFilter
  show (Order.sortBy Snapshot.nodeLe _).length ≤ _
  rw [hPerm]
  exact hFilter

/-- Then a container never needs more repairs than a word counts either. -/
theorem Countable.needed_lt {s : Store} (h : s.Countable) {id : ContainerId} {e : StoreEntry}
    (hEntry : s.entries.get? id = some e) (lookup : NodeLookup) (i : Imbalance) :
    ((snapshotOf e).evaluate lookup).needed i < UInt64.size := by
  have hFactor : (snapshotOf e).factor < UInt64.size := e.container.factor.toNat_lt
  have hGood : (snapshotOf e).count .good ≤ (snapshotOf e).replicas.length :=
    List.length_filter_le _ _
  have hReplicas := length_replicas_snapshotOf_le e
  have hSize := h id e hEntry
  unfold Evaluation.needed
  split
  · cases i with
    | shortage =>
      show (snapshotOf e).factor - (snapshotOf e).count .good < UInt64.size
      omega
    | surplus =>
      show (snapshotOf e).count .good - (snapshotOf e).factor < UInt64.size
      omega
  · exact Nat.zero_lt_of_lt hSize

end Store

/-- A manager, and what was taken out of its outbox so far. -/
structure Delivery where
  received : List Directive
  manager : Manager

namespace Delivery

/-- A manager that is made anew; nothing was taken out yet. -/
def fresh (config : Config) (store : Store) (registry : Registry) : Delivery where
  received := []
  manager := .of config store registry

/-- Everything that the outbox ever accepted. -/
def accepted (d : Delivery) : List Directive :=
  d.received ++ d.manager.outbox.waiting

/-- The accepted repairs under a key. -/
def acceptedFor (d : Delivery) (key : RepairKey) : List Directive :=
  d.accepted.filter fun x => x.key = key

/-- What one tick leads to. -/
def step (d : Delivery) : Tick → Delivery
  | .round now => { d with manager := (d.manager.cycle now).2 }
  | .collect n =>
    let taken := d.manager.drain n
    { received := d.received ++ taken.1, manager := taken.2 }

/-- What ticks in turn lead to. -/
def run (d : Delivery) (ticks : List Tick) : Delivery :=
  ticks.foldl step d

theorem run_concat (d : Delivery) (ticks : List Tick) (t : Tick) :
    d.run (ticks ++ [t]) = (d.run ticks).step t :=
  List.foldl_append

theorem accepted_collect (d : Delivery) (n : Nat) :
    (d.step (.collect n)).accepted = d.accepted := by
  simp [step, accepted, Manager.drain, Outbox.take]

theorem acceptedFor_concat_collect (d : Delivery) (past : List Tick) (n : Nat) (key : RepairKey) :
    (d.run (past ++ [.collect n])).acceptedFor key = (d.run past).acceptedFor key := by
  rw [run_concat, acceptedFor, accepted_collect, acceptedFor]

/-! ## Rounds that break down -/

/-- What one tick leads to, if it comes to its end. -/
def step? (d : Delivery) : Tick → Option Delivery
  | .round now => (d.manager.cycle? now).map fun done => { d with manager := done.2 }
  | .collect n => some (d.step (.collect n))

/-- What ticks in turn lead to, if all of them come to their ends. -/
def run? (d : Delivery) (ticks : List Tick) : Option Delivery :=
  ticks.foldlM step? d

theorem eq_step_of_step? {d d' : Delivery} {t : Tick} (h : d.step? t = some d') : d' = d.step t := by
  cases t with
  | collect n => exact (Option.some.inj h).symm
  | round now =>
    obtain ⟨done, hDone, rfl⟩ := Option.map_eq_some_iff.1 h
    rw [d.manager.eq_cycle_of_cycle? now hDone]
    rfl

/-- A run that comes to its end leads where the unchecked run does. -/
theorem eq_run_of_run? {d d' : Delivery} {ticks : List Tick} (h : d.run? ticks = some d') :
    d' = d.run ticks := by
  induction ticks generalizing d with
  | nil => exact (Option.some.inj h).symm
  | cons t rest ih =>
    obtain ⟨next, hNext, hRest⟩ := Option.bind_eq_some_iff.1 h
    rw [ih hRest, eq_step_of_step? hNext]
    rfl

/-- A run comes to its end if the clock can show the deadlines of all its rounds. -/
theorem run?_of_canStamp {d : Delivery} {ticks : List Tick}
    (h : ∀ now ∈ Tick.moments ticks, d.manager.canStamp now = true) :
    d.run? ticks = some (d.run ticks) := by
  induction ticks generalizing d with
  | nil => rfl
  | cons t rest ih =>
    have hStep : d.step? t = some (d.step t) := by
      cases t with
      | collect n => rfl
      | round now =>
        have hNow : d.manager.canStamp now = true := h now (by simp [Tick.moments, Tick.moment?])
        rw [step?, d.manager.cycle?_of_canStamp now hNow]
        rfl
    -- A tick leaves the configuration alone, and with it the timeout.
    have hRest : ∀ now ∈ Tick.moments rest, (d.step t).manager.canStamp now = true := by
      intro now hNow
      have hLater : now ∈ Tick.moments (t :: rest) :=
        ((List.suffix_cons t rest).filterMap Tick.moment?).subset hNow
      cases t <;> exact h now hLater
    have hRun : d.run? (t :: rest) = (d.step? t).bind (run? · rest) := rfl
    rw [hRun, hStep]
    exact ih hRest

/-! ## The cluster stands still -/

/-- A delivery in which the cluster is as it was. -/
structure Standing (m : Manager) (d : Delivery) : Prop where
  sound : d.manager.Sound
  opened : d.manager.queue.closed = false
  config : d.manager.config = m.config
  store : d.manager.store = m.store
  registry : d.manager.registry = m.registry

section Standing

variable {m : Manager} {d : Delivery} (h : d.Standing m)
include h

theorem standing_step (t : Tick) : (d.step t).Standing m := by
  cases t with
  | round now =>
    obtain ⟨hSound, hClosed⟩ := Manager.sound_cycle now h.sound
    exact ⟨hSound, hClosed.trans h.opened, h.config, h.store, h.registry⟩
  | collect n => exact ⟨⟨h.sound.keyed, h.sound.queue⟩, h.opened, h.config, h.store, h.registry⟩

theorem standing_run (ticks : List Tick) : (d.run ticks).Standing m := by
  induction ticks generalizing d with
  | nil => exact h
  | cons t rest ih => exact ih (standing_step h t)

theorem evaluations_eq (now : Moment) : d.manager.evaluations now = m.evaluations now := by
  rw [Manager.evaluations, Manager.evaluations, Manager.lookup, Manager.lookup, h.store, h.registry]

theorem accepted_round (now : Moment) :
    (d.step (.round now)).accepted = d.accepted ++ d.manager.sentIn now := by
  simp only [step, accepted, Manager.waiting_cycle now h.sound, List.append_assoc]

theorem acceptedFor_round (now : Moment) (key : RepairKey) :
    (d.step (.round now)).acceptedFor key =
      d.acceptedFor key ++ (d.manager.sentIn now).filter (fun x => x.key = key) := by
  rw [acceptedFor, accepted_round h, List.filter_append]
  rfl

/-- Nothing is ever accepted for a container that is not known. -/
theorem acceptedFor_step_of_unknown {now : Moment} {id : ContainerId}
    (hUnknown : (m.evaluations now).get? id = none) (i : Imbalance) :
    (d.step (.round now)).acceptedFor ⟨id, i.repair⟩ = d.acceptedFor ⟨id, i.repair⟩ := by
  rw [← evaluations_eq h] at hUnknown
  rw [acceptedFor_round h, Manager.filter_key_sentIn_eq_nil now h.sound hUnknown, List.append_nil]

end Standing

/-! ## What is in flight and what was accepted -/

/-- Of the repairs under a key as many are in flight as were ever accepted, and the last of them joined at
one of some moments. -/
def Aloft (d : Delivery) (key : RepairKey) (moments : List Moment) : Prop :=
  (d.acceptedFor key = [] ∧ d.manager.queue.inflight.flights.get? key = none) ∨
    (d.acceptedFor key ≠ [] ∧ ∃ t ∈ moments, d.manager.queue.inflight.flights.get? key =
      some ⟨UInt64.ofNat (d.acceptedFor key).length,
        t.steady + d.manager.config.inflightTimeout.totalNanos⟩)

/-- What is aloft stays aloft when all that is newly accepted joins it. -/
theorem Aloft.joined {d d' : Delivery} {key : RepairKey} {moments : List Moment} {now : Moment}
    {new : List Directive} (hAloft : d.Aloft key moments)
    (hConfig : d'.manager.config = d.manager.config)
    (hStep : d'.acceptedFor key = d.acceptedFor key ++ new)
    (hKept : new = [] → d'.manager.queue.inflight.flights.get? key =
      d.manager.queue.inflight.flights.get? key)
    (hJoined : new ≠ [] → d'.manager.queue.inflight.flights.get? key =
      some ⟨UInt64.ofNat (d.acceptedFor key).length + UInt64.ofNat new.length,
        now.steady + d.manager.config.inflightTimeout.totalNanos⟩) :
    d'.Aloft key (moments ++ [now]) := by
  rw [Aloft, hStep, hConfig]
  by_cases hNothing : new = []
  · rw [hNothing, List.append_nil, hKept hNothing]
    rcases hAloft with hNone | ⟨hOwn, t, ht, hFlight⟩
    · exact Or.inl hNone
    · exact Or.inr ⟨hOwn, t, List.mem_append_left _ ht, hFlight⟩
  · refine Or.inr ⟨List.append_ne_nil_of_right_ne_nil _ hNothing, now,
      List.mem_append_right _ List.mem_cons_self, ?_⟩
    rw [hJoined hNothing, List.length_append, UInt64.ofNat_add]

section Round

variable {m : Manager} {d : Delivery} (h : d.Standing m) {now : Moment} {id : ContainerId}
  {e : Evaluation} (hEvaluation : (m.evaluations now).get? id = some e) (i : Imbalance)
  {moments : List Moment} (hAloft : d.Aloft ⟨id, i.repair⟩ moments)
  (hBound : (d.acceptedFor ⟨id, i.repair⟩).length ≤ e.needed i)
include h hEvaluation hAloft hBound

/-- Bringing the queue in line leaves alone what is aloft, since no more was accepted than is needed. -/
theorem get?_settledQueue_of_aloft :
    (d.manager.settledQueue now).inflight.flights.get? ⟨id, i.repair⟩ =
      d.manager.queue.inflight.flights.get? ⟨id, i.repair⟩ := by
  rw [← evaluations_eq h] at hEvaluation
  rw [Manager.get?_settledQueue now h.sound h.opened hEvaluation i]
  rcases hAloft with ⟨-, hNone⟩ | ⟨hSome, t, -, hFlight⟩
  · simp [hNone, Inflight.cap]
  · -- Something was accepted, so something is needed, and a flight within the need is not cut down.
    have hPos := List.length_pos_iff.2 hSome
    have hWord : (UInt64.ofNat (d.acceptedFor ⟨id, i.repair⟩).length).toNat ≤
        (d.acceptedFor ⟨id, i.repair⟩).length := by
      rw [UInt64.toNat_ofNat']
      exact Nat.mod_le _ _
    rw [hFlight, Inflight.cap_eq_self (by omega) (by exact Nat.le_trans hWord hBound)]

variable (hTime : ∀ t ∈ moments,
  now.steady < t.steady + d.manager.config.inflightTimeout.totalNanos)
include hTime

/-- As long as nothing lapses, what counts is what was accepted. -/
theorem current_settledQueue_of_aloft :
    ((d.manager.settledQueue now).current id i.repair now.steady).1 =
      UInt64.ofNat (d.acceptedFor ⟨id, i.repair⟩).length := by
  have hSame := get?_settledQueue_of_aloft h hEvaluation i hAloft hBound
  have hCurrent := (d.manager.settledQueue now).inflight.current_fst id i.repair now.steady
  rw [hSame] at hCurrent
  rcases hAloft with ⟨hOwn, hNone⟩ | ⟨-, t, ht, hFlight⟩
  · rw [hNone] at hCurrent
    rw [hOwn]
    exact hCurrent
  · rw [hFlight, Option.elim_some, Inflight.countAt, if_pos (hTime t ht)] at hCurrent
    exact hCurrent

omit h hEvaluation hBound in
/-- What is aloft has not lapsed. -/
theorem filter_get?_of_aloft :
    (d.manager.queue.inflight.flights.get? ⟨id, i.repair⟩).filter
        (fun flight => now.steady < flight.deadline) =
      d.manager.queue.inflight.flights.get? ⟨id, i.repair⟩ := by
  rcases hAloft with ⟨-, hNone⟩ | ⟨-, t, ht, hFlight⟩
  · rw [hNone]
    rfl
  · simp [hFlight, Option.filter, hTime t ht]

/-- A round goes on with a container's repairs behind those that were accepted. -/
theorem round_continues (hWord : e.needed i < UInt64.size) :
    ∃ new, (d.step (.round now)).acceptedFor ⟨id, i.repair⟩ =
        d.acceptedFor ⟨id, i.repair⟩ ++ new ∧
      new <+: (e.ofKind i.repair).drop (d.acceptedFor ⟨id, i.repair⟩).length ∧
      (d.step (.round now)).Aloft ⟨id, i.repair⟩ (moments ++ [now]) := by
  have hCurrent := current_settledQueue_of_aloft h hEvaluation i hAloft hBound hTime
  have hListed := (Manager.proper_evaluations now h.sound id e
    ((evaluations_eq h now).symm ▸ hEvaluation)).1.within i
  obtain ⟨hContinues, hJoined, hKept⟩ := Manager.repaired_cycle now h.sound
    ((evaluations_eq h now).symm ▸ hEvaluation) i
  generalize hNew : (d.manager.sentIn now).filter (fun x => x.key = ⟨id, i.repair⟩) = new at *
  have hStep : (d.step (.round now)).acceptedFor ⟨id, i.repair⟩ =
      d.acceptedFor ⟨id, i.repair⟩ ++ new := by
    rw [acceptedFor_round h, hNew]
  have hToNat : (UInt64.ofNat (d.acceptedFor ⟨id, i.repair⟩).length).toNat =
      (d.acceptedFor ⟨id, i.repair⟩).length :=
    UInt64.toNat_ofNat_of_lt' (Nat.lt_of_le_of_lt hBound hWord)
  rw [hCurrent, hToNat] at hContinues
  rw [hCurrent] at hJoined
  rw [get?_settledQueue_of_aloft h hEvaluation i hAloft hBound,
    filter_get?_of_aloft i hAloft hTime, or_self] at hKept
  refine ⟨new, hStep, hContinues, hAloft.joined rfl hStep (fun hNothing => ?_) fun hSome => ?_⟩
  · exact hKept (by rw [hNothing]; rfl)
  · -- What is sent stays within the need, so its count is a word and does not wrap around to zero.
    have hLength := hContinues.length_le
    have hPos := List.length_pos_iff.2 hSome
    rw [List.length_drop] at hLength
    have hNewWord : new.length < UInt64.size := by omega
    refine hJoined fun hZero => Nat.ne_of_gt hPos ?_
    have hNat := congrArg UInt64.toNat hZero
    rwa [UInt64.toNat_ofNat_of_lt' hNewWord] at hNat

end Round

/-! ## Many rounds -/

section Run

variable {config : Config} {store : Store} {registry : Registry} (hKeyed : store.Keyed)
include hKeyed

theorem standing_fresh (ticks : List Tick) :
    ((fresh config store registry).run ticks).Standing (.of config store registry) :=
  standing_run (d := fresh config store registry)
    ⟨Manager.sound_of config hKeyed registry, rfl, rfl, rfl, rfl⟩ ticks

theorem acceptedFor_run_of_unknown {id : ContainerId} (hUnknown : store.entries.get? id = none)
    (i : Imbalance) (ticks : List Tick) :
    ((fresh config store registry).run ticks).acceptedFor ⟨id, i.repair⟩ = [] := by
  induction ticks using List.reverseRecOn with
  | nil => rfl
  | append_singleton past t ih =>
    have hStanding : ((fresh config store registry).run past).Standing (.of config store registry) :=
      standing_fresh hKeyed past
    rw [run_concat]
    cases t with
    | round now =>
      rw [acceptedFor_step_of_unknown hStanding ?_ i, ih]
      rw [Manager.get?_evaluations]
      exact congrArg _ hUnknown
    | collect n => rw [← run_concat, acceptedFor_concat_collect, ih]

variable {id : ContainerId} {entry : StoreEntry} (hEntry : store.entries.get? id = some entry)
  (i : Imbalance)
  (hWord : ∀ lookup, ((Store.snapshotOf entry).evaluate lookup).needed i < UInt64.size)
include hEntry hWord

omit hKeyed hWord in
theorem get?_evaluations_of_entry (now : Moment) :
    ((Manager.of config store registry).evaluations now).get? id =
      some ((Store.snapshotOf entry).evaluate (registry.lookup? now.wall)) := by
  rw [Manager.get?_evaluations]
  exact congrArg _ hEntry

/-- One more round goes on behind what was accepted, as long as nothing lapses. -/
theorem run_round {past : List Tick} {now : Moment}
    (hWithin : Tick.Within config.inflightTimeout (past ++ [.round now]))
    (hAloft : ((fresh config store registry).run past).Aloft ⟨id, i.repair⟩ (Tick.moments past))
    (hBound : ∀ lookup, (((fresh config store registry).run past).acceptedFor
      ⟨id, i.repair⟩).length ≤ ((Store.snapshotOf entry).evaluate lookup).needed i) :
    ∃ new, ((fresh config store registry).run (past ++ [.round now])).acceptedFor ⟨id, i.repair⟩ =
        ((fresh config store registry).run past).acceptedFor ⟨id, i.repair⟩ ++ new ∧
      new <+: (((Store.snapshotOf entry).evaluate (registry.lookup? now.wall)).ofKind i.repair).drop
        (((fresh config store registry).run past).acceptedFor ⟨id, i.repair⟩).length ∧
      ((fresh config store registry).run (past ++ [.round now])).Aloft ⟨id, i.repair⟩
        (Tick.moments (past ++ [.round now])) := by
  have hStanding : ((fresh config store registry).run past).Standing (.of config store registry) :=
    standing_fresh hKeyed past
  have hEvaluation : ((Manager.of config store registry).evaluations now).get? id = _ :=
    get?_evaluations_of_entry hEntry now
  have hTime : ∀ t ∈ Tick.moments past, now.steady < t.steady +
      ((fresh config store registry).run past).manager.config.inflightTimeout.totalNanos := by
    rw [hStanding.config]
    exact hWithin.lt
  rw [run_concat, Tick.moments_concat_round]
  exact round_continues hStanding hEvaluation i hAloft (hBound _) hTime (hWord _)

variable (registry) in
/-- Through rounds within one timeout, what was accepted stays aloft and within the need. -/
theorem aloft_run {ticks : List Tick} (hWithin : Tick.Within config.inflightTimeout ticks) :
    ((fresh config store registry).run ticks).Aloft ⟨id, i.repair⟩ (Tick.moments ticks) ∧
      ∀ lookup, (((fresh config store registry).run ticks).acceptedFor ⟨id, i.repair⟩).length ≤
        ((Store.snapshotOf entry).evaluate lookup).needed i := by
  induction ticks using List.reverseRecOn with
  | nil => exact ⟨Or.inl ⟨rfl, rfl⟩, fun _ => Nat.zero_le _⟩
  | append_singleton past t ih =>
    obtain ⟨hAloft, hBound⟩ := ih (hWithin.of_prefix (List.prefix_append _ _))
    cases t with
    | collect n =>
      have hSame := (fresh config store registry).acceptedFor_concat_collect past n ⟨id, i.repair⟩
      refine ⟨?_, hSame ▸ hBound⟩
      rw [Aloft, hSame, run_concat, Tick.moments_concat_collect]
      exact hAloft
    | round now =>
      obtain ⟨new, hStep, hContinues, hNext⟩ := run_round hKeyed hEntry i hWord hWithin hAloft hBound
      refine ⟨hNext, fun lookup => ?_⟩
      -- What is needed does not depend on the nodes, only what is listed does.
      have hListed : (((Store.snapshotOf entry).evaluate
          (registry.lookup? now.wall)).ofKind i.repair).length ≤
            ((Store.snapshotOf entry).evaluate lookup).needed i :=
        (Snapshot.regular_evaluate _ _).within i
      have hLength := hContinues.length_le
      have hSoFar := hBound lookup
      rw [List.length_drop] at hLength
      rw [hStep, List.length_append]
      omega

omit hEntry hWord in
variable (registry) in
/-- Each round goes on with the repairs of a container, known or not, behind those that were accepted. -/
theorem run_continues (hCountable : store.Countable) {past : List Tick} {now : Moment}
    (hWithin : Tick.Within config.inflightTimeout (past ++ [.round now])) (id : ContainerId)
    (i : Imbalance) :
    ∃ new, ((fresh config store registry).run (past ++ [.round now])).acceptedFor ⟨id, i.repair⟩ =
        ((fresh config store registry).run past).acceptedFor ⟨id, i.repair⟩ ++ new ∧
      new <+: ((Manager.of config store registry).listed now ⟨id, i.repair⟩).drop
        (((fresh config store registry).run past).acceptedFor ⟨id, i.repair⟩).length := by
  cases hEntry : store.entries.get? id with
  | none =>
    -- A container that is not in the store is never evaluated.
    have hNothing : ∀ ticks,
        ((fresh config store registry).run ticks).acceptedFor ⟨id, i.repair⟩ = [] :=
      acceptedFor_run_of_unknown hKeyed hEntry i
    exact ⟨[], by rw [hNothing, hNothing, List.append_nil], List.nil_prefix⟩
  | some entry =>
    have hWord := fun lookup => hCountable.needed_lt hEntry lookup i
    obtain ⟨hAloft, hBound⟩ := aloft_run registry hKeyed hEntry i hWord
      (hWithin.of_prefix (List.prefix_append _ _))
    obtain ⟨new, hStep, hContinues, -⟩ := run_round hKeyed hEntry i hWord hWithin hAloft hBound
    refine ⟨new, hStep, ?_⟩
    rw [Manager.listed, get?_evaluations_of_entry hEntry]
    exact hContinues

omit hEntry hWord in
/-- Where every round lists the same for a container, what is accepted is a front part of that list. -/
theorem acceptedFor_run_prefix (hCountable : store.Countable) {ticks : List Tick}
    (hWithin : Tick.Within config.inflightTimeout ticks) {id : ContainerId} {i : Imbalance}
    {list : List Directive} (hList : ∀ now ∈ Tick.moments ticks,
      (Manager.of config store registry).listed now ⟨id, i.repair⟩ = list) :
    ((fresh config store registry).run ticks).acceptedFor ⟨id, i.repair⟩ <+: list := by
  induction ticks using List.reverseRecOn with
  | nil => exact List.nil_prefix
  | append_singleton past t ih =>
    have hSoFar := ih (hWithin.of_prefix (List.prefix_append _ _)) fun now hNow =>
      hList now (((List.prefix_append _ _).filterMap Tick.moment?).subset hNow)
    cases t with
    | collect n => rwa [acceptedFor_concat_collect]
    | round now =>
      obtain ⟨new, hStep, hContinues⟩ := run_continues registry hKeyed hCountable hWithin id i
      -- What the round adds continues what is there already.
      obtain ⟨rest, hRest⟩ := hSoFar
      rw [hList now (by simp [Tick.moments_concat_round]), ← hRest, List.drop_left] at hContinues
      rw [hStep, ← hRest]
      exact (List.prefix_append_right_inj _).2 hContinues

end Run

end Delivery

/-- No repair is sent twice while it is in flight.  A manager is made for a cluster that stands still and
goes through rounds within one timeout, and between them directives are taken out of its outbox, as
many and as often as you like.  Then each round's accepted repairs of a kind for a container come from
the list of that round, and begin right behind as many as were accepted before; so where every
round lists the same, all that was ever accepted is a front part of that list.  A run in which every deadline
is checked as it is set has accepted the same as far as it comes, and it comes to its end if the clock can
show them all. -/
theorem repairs_accepted_once (config : Config) (operations : List Store.Operation)
    (registry : Registry) (ticks : List Tick) (id : ContainerId) (i : Imbalance)
    (hCountable : (Store.empty.run operations).Countable)
    (hWithin : Tick.Within config.inflightTimeout ticks) :
    let store := Store.empty.run operations
    let listed := fun now => (Manager.of config store registry).listed now ⟨id, i.repair⟩
    let accepted := fun ticks =>
      ((Delivery.fresh config store registry).run ticks).acceptedFor ⟨id, i.repair⟩
    (∀ past now, past ++ [.round now] <+: ticks →
      ∃ new, accepted (past ++ [.round now]) = accepted past ++ new ∧
        new <+: (listed now).drop (accepted past).length) ∧
      (∀ list, (∀ now ∈ Tick.moments ticks, listed now = list) → accepted ticks <+: list) ∧
      (∀ past d, (Delivery.fresh config store registry).run? past = some d →
        d.acceptedFor ⟨id, i.repair⟩ = accepted past) ∧
      ((∀ now ∈ Tick.moments ticks, (Manager.of config store registry).canStamp now = true) →
        (Delivery.fresh config store registry).run? ticks =
          some ((Delivery.fresh config store registry).run ticks)) := by
  intro store listed accepted
  have hKeyed : store.Keyed := Store.keyed_empty.run operations
  refine ⟨fun past now hPast => ?_, fun list hList => ?_, fun past d hPast => ?_,
    fun hStamp => Delivery.run?_of_canStamp hStamp⟩
  · exact Delivery.run_continues registry hKeyed hCountable (hWithin.of_prefix hPast) id i
  · exact Delivery.acceptedFor_run_prefix hKeyed hCountable hWithin hList
  · rw [Delivery.eq_run_of_run? hPast]

/-- An outbox for one directive takes the first of two deletes; the second is dropped in the next round,
and accepted as soon as there is room again. -/
theorem repairs_accepted_once_of_two :
    let day : Timestamp := ⟨⟨2024, 1, 1, 0, 0, 0, 0⟩, by decide⟩
    let status : NodeStatus := ⟨.inService, .healthy, none⟩
    let config : Config := { Config.default with capacity := 1 }
    let operations : List Store.Operation :=
      [.add ⟨⟨1⟩, .closed, 1, 0⟩, .report ⟨⟨1⟩, "a", .closed, some 7, some "a", false⟩,
        .report ⟨⟨1⟩, "b", .closed, some 7, some "a", false⟩,
        .report ⟨⟨1⟩, "c", .closed, some 7, some "a", false⟩]
    let registry : Registry :=
      (ClusterImage.registryOf [⟨"a", "", status⟩, ⟨"b", "", status⟩, ⟨"c", "", status⟩]).toOption.getD
        .empty
    let ticks : List Tick := [.round ⟨day, 0⟩, .round ⟨day, 1⟩, .collect 1, .round ⟨day, 2⟩]
    let accepted := fun ticks => ((Delivery.fresh config (Store.empty.run operations) registry).run
      ticks).acceptedFor ⟨⟨1⟩, .delete⟩
    (Store.empty.run operations).Countable ∧ Tick.Within config.inflightTimeout ticks ∧
      accepted (ticks.take 3) = [.delete ⟨1⟩ "b"] ∧
      accepted ticks = [.delete ⟨1⟩ "b", .delete ⟨1⟩ "c"] ∧
      accepted ticks <+: [.delete ⟨1⟩ "b", .delete ⟨1⟩ "c"] ∧
      (Delivery.fresh config (Store.empty.run operations) registry).run? ticks =
        some ((Delivery.fresh config (Store.empty.run operations) registry).run ticks) := by
  intro day status config operations registry ticks accepted
  have hCountable : (Store.empty.run operations).Countable := by decide +kernel
  have hWithin : Tick.Within config.inflightTimeout ticks := by decide +kernel
  obtain ⟨-, hPrefix, -, hEnds⟩ :=
    repairs_accepted_once config operations registry ticks ⟨1⟩ .surplus hCountable hWithin
  have hListed : ∀ now ∈ Tick.moments ticks, (Manager.of config (Store.empty.run operations)
      registry).listed now ⟨⟨1⟩, .delete⟩ = [.delete ⟨1⟩ "b", .delete ⟨1⟩ "c"] := by
    decide +kernel
  have hStamp : ∀ now ∈ Tick.moments ticks, (Manager.of config (Store.empty.run operations)
      registry).canStamp now = true := by
    decide +kernel
  exact ⟨hCountable, hWithin, by decide +kernel, by decide +kernel, hPrefix _ hListed, hEnds hStamp⟩

end ReplicaUpkeep
