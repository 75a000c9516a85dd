import ReplicaUpkeep.Proofs.Manager.Counters
import ReplicaUpkeep.Proofs.Manager.History
import ReplicaUpkeep.Proofs.Plan.Closing
import ReplicaUpkeep.Proofs.Queue.Operations
import ReplicaUpkeep.Proofs.Store.Shown

/-!
# The account of a round

A round counts what it does in four places: the report, the metrics, the repairs in flight and the outbox.
Here the four are compared with one list, the directives that the round attempts.  What the outbox takes
is the front of that list, and everything else follows: the report tells it by kind and calls the rest
dropped, the flights are joined by their share of it, and every counter, moved once for each evaluation,
directive and waiter, ends up as far on as the figure reported.

The manager may be in any state in which its queue is open.  Its store and its queue are what operations
on each have left, in whatever order; registry, metrics and outbox are arbitrary.
-/

namespace ReplicaUpkeep

/-! ## The order of the closes -/

/-- Where containers come in ascending order and the closes of each in the order of nodes, all closes come
in the order of both. -/
theorem closes_ascending {es : List Evaluation} (hIds : (es.map Evaluation.id).Pairwise (· < ·))
    (hEach : ∀ e ∈ es, ∃ nodes : List NodeId, nodes.Pairwise (· < ·) ∧
      e.ofKind .close = nodes.map (Directive.close e.id)) :
    ∃ places : List (OrderedPair ContainerId NodeId), places.Pairwise (· < ·) ∧
      (∀ p ∈ places, p.major ∈ es.map Evaluation.id) ∧
      (es.flatMap fun e => e.ofKind .close) = places.map fun p => .close p.major p.minor := by
  induction es with
  | nil => exact ⟨[], .nil, by simp, rfl⟩
  | cons e rest ih =>
    rw [List.map_cons, List.pairwise_cons] at hIds
    obtain ⟨nodes, hNodes, hCloses⟩ := hEach e List.mem_cons_self
    obtain ⟨places, hPlaces, hMajor, hRest⟩ :=
      ih hIds.2 fun d hd => hEach d (List.mem_cons_of_mem _ hd)
    refine ⟨nodes.map (OrderedPair.mk e.id) ++ places, ?_, ?_, ?_⟩
    · refine List.pairwise_append.2 ⟨?_, hPlaces, fun p hp q hq => ?_⟩
      · exact List.pairwise_map.2 (hNodes.imp fun hlt => .inr ⟨rfl, hlt⟩)
      · obtain ⟨n, -, rfl⟩ := List.mem_map.1 hp
        exact .inl (hIds.1 _ (hMajor q hq))
    · intro p hp
      rw [List.map_cons]
      rcases List.mem_append.1 hp with hOwn | hLater
      · obtain ⟨n, -, rfl⟩ := List.mem_map.1 hOwn
        exact List.mem_cons_self
      · exact List.mem_cons_of_mem _ (hMajor p hLater)
    · rw [List.flatMap_cons, hCloses, hRest, List.map_append, List.map_map]
      rfl

/-! ## The account -/

theorem Plan.countOf_add (ds : List Directive) :
    countOf ds .close + countOf ds .replicate + countOf ds .delete = ds.length := by
  induction ds with
  | nil => rfl
  | cons d rest ih =>
    simp only [countOf, ofKind, List.filter_cons, List.length_cons] at ih ⊢
    cases d.kind <;> simp <;> omega

namespace Manager

variable (m : Manager) (now : Moment)

/-- How many of the repairs listed for a waiter a round holds back, since as many are in flight. -/
def heldBack (w : Waiter) : Nat :=
  min ((m.settledQueue now).inflightAt w.container w.imbalance.repair now.steady)
    (m.listed now w.key).length

/-- How many of the directives that a round sends are under a key. -/
def sentFor (key : RepairKey) : Nat :=
  ((m.sentIn now).filter fun d => d.key = key).length

/-- A round that accounts for every directive that it attempts. -/
structure Accounts (report : CycleReport) (after : Manager) : Prop where
  /-- Closes are attempted in the order of their containers, and for one container in that of nodes. -/
  ordered : ∃ places : List (OrderedPair ContainerId NodeId), places.Pairwise (· < ·) ∧
    m.closes now = places.map fun p => .close p.major p.minor
  /-- Before any repair is attempted, no more of them count than the container needs. -/
  trimmed : ∀ id e, (m.evaluations now).get? id = some e → ∀ (i : Imbalance) (t : Nat),
    (m.settledQueue now).inflightAt id i.repair t =
      min (m.queue.inflightAt id i.repair t) (e.needed i)
  /-- Closes come first, then for each waiter of the batch its repairs behind those held back. -/
  attempted : m.attempts now = m.closes now ++
    (m.batch now).flatMap fun w => (m.listed now w.key).drop (m.heldBack now w)
  /-- As many of the first attempts as fit are sent, and none if nobody listens. -/
  sent : m.sentIn now = (m.attempts now).take
    (if m.outbox.listening then m.outbox.capacity - m.outbox.waiting.length else 0)
  outbox : after.outbox = { m.outbox with waiting := m.outbox.waiting ++ m.sentIn now }
  byKind : report.closes = Plan.countOf (m.sentIn now) .close ∧
    report.replicates = Plan.countOf (m.sentIn now) .replicate ∧
    report.deletes = Plan.countOf (m.sentIn now) .delete
  dispatched : report.dispatched = (m.sentIn now).length
  dropped : report.dispatched + report.dropped = (m.attempts now).length
  suppressed : report.suppressed = (m.batch now).foldr (fun w n => m.heldBack now w + n) 0
  failed : report.failed = 0
  /-- What is sent under a key flies together with what still counted, until one new deadline. -/
  joined : ∀ id (i : Imbalance), UInt64.ofNat (m.sentFor now ⟨id, i.repair⟩) ≠ 0 →
    after.queue.inflight.flights.get? ⟨id, i.repair⟩ =
      some ⟨((m.settledQueue now).current id i.repair now.steady).1 +
          UInt64.ofNat (m.sentFor now ⟨id, i.repair⟩),
        now.steady + m.config.inflightTimeout.totalNanos⟩
  /-- Where the need is a word, so is that sum: as many more count as were sent. -/
  grown : ∀ id e, (m.evaluations now).get? id = some e → ∀ i : Imbalance,
    e.needed i < UInt64.size → m.sentFor now ⟨id, i.repair⟩ ≠ 0 →
      ∀ t, t < now.steady + m.config.inflightTimeout.totalNanos →
        after.queue.inflightAt id i.repair t =
          (m.settledQueue now).inflightAt id i.repair now.steady +
            m.sentFor now ⟨id, i.repair⟩
  /-- Where nothing is sent, as many count as before, now and at any later time. -/
  kept : ∀ id (i : Imbalance), UInt64.ofNat (m.sentFor now ⟨id, i.repair⟩) = 0 →
    ∀ t, now.steady ≤ t →
      after.queue.inflightAt id i.repair t = (m.settledQueue now).inflightAt id i.repair t
  counters : ∀ c, after.metrics.counter c = m.metrics.counter c + UInt64.ofNat (report.figure c)
  /-- Counting each directive as it is sent comes to the same, -/
  oneByOne : ∀ kind, after.metrics.counter (.dispatched kind) =
    ((m.sentIn now).foldl (fun metrics d => metrics.recordDispatched d.kind) m.metrics).counter
      (.dispatched kind)
  /-- and so does counting each that finds no place as it is dropped, -/
  drops : after.metrics.counter .dropped =
    (((m.attempts now).drop (m.sentIn now).length).foldl (fun metrics _ => metrics.add 1 .dropped)
      m.metrics).counter .dropped
  /-- and counting for each waiter of the batch what is held back when its turn comes. -/
  holds : after.metrics.counter .suppressed =
    ((m.batch now).foldl (fun metrics w => metrics.add (UInt64.ofNat (m.heldBack now w)) .suppressed)
      m.metrics).counter .suppressed

section Sound

variable {m} (h : m.Sound)
include h

theorem ordered_closes :
    ∃ places : List (OrderedPair ContainerId NodeId), places.Pairwise (· < ·) ∧
      m.closes now = places.map fun p => .close p.major p.minor := by
  have hEach : ∀ e ∈ (m.evaluations now).values, ∃ nodes : List NodeId,
      nodes.Pairwise (· < ·) ∧ e.ofKind .close = nodes.map (Directive.close e.id) := by
    intro e he
    obtain ⟨id, hEntry⟩ := (Table.mem_values_iff _ e).1 he
    rw [get?_evaluations, Option.map_eq_some_iff] at hEntry
    obtain ⟨entry, -, rfl⟩ := hEntry
    rw [Snapshot.ofKind_evaluate]
    exact Snapshot.directives_part_close_ascending _ _ (Store.nodup_node_snapshotOf entry)
  obtain ⟨places, hPlaces, -, hCloses⟩ :=
    closes_ascending (proper_evaluations now h).id_ascending hEach
  exact ⟨places, hPlaces, hCloses⟩

omit h in
theorem attempts_eq :
    m.attempts now = m.closes now ++
      (m.batch now).flatMap fun w => (m.listed now w.key).drop (m.heldBack now w) := by
  refine congrArg (m.closes now ++ ·) (List.flatMap_congr fun w _ => ?_)
  exact (Dispatch.drop_min_length _ _).symm

theorem sentFor_add_inflightAt_le {id : ContainerId} {e : Evaluation}
    (hEvaluation : (m.evaluations now).get? id = some e) (i : Imbalance) :
    m.sentFor now ⟨id, i.repair⟩ + (m.settledQueue now).inflightAt id i.repair now.steady ≤
      e.needed i :=
  (inflightAt_cycle_le h hEvaluation i).1

theorem sentFor_of_unknown {id : ContainerId} (hUnknown : (m.evaluations now).get? id = none)
    (i : Imbalance) : m.sentFor now ⟨id, i.repair⟩ = 0 := by
  rw [sentFor, filter_key_sentIn_eq_nil now h hUnknown i]
  rfl

theorem get?_cycle_of_sent {id : ContainerId} {i : Imbalance}
    (hSent : UInt64.ofNat (m.sentFor now ⟨id, i.repair⟩) ≠ 0) :
    (m.cycle now).2.queue.inflight.flights.get? ⟨id, i.repair⟩ =
      some ⟨((m.settledQueue now).current id i.repair now.steady).1 +
          UInt64.ofNat (m.sentFor now ⟨id, i.repair⟩),
        now.steady + m.config.inflightTimeout.totalNanos⟩ := by
  cases hEvaluation : (m.evaluations now).get? id with
  | none =>
    rw [sentFor_of_unknown now h hEvaluation i] at hSent
    exact absurd rfl hSent
  | some e => exact (repaired_cycle now h hEvaluation i).joined hSent

theorem inflightAt_cycle_of_sent {id : ContainerId} {e : Evaluation}
    (hEvaluation : (m.evaluations now).get? id = some e) {i : Imbalance}
    (hWord : e.needed i < UInt64.size) (hSent : m.sentFor now ⟨id, i.repair⟩ ≠ 0) {t : Nat}
    (ht : t < now.steady + m.config.inflightTimeout.totalNanos) :
    (m.cycle now).2.queue.inflightAt id i.repair t =
      (m.settledQueue now).inflightAt id i.repair now.steady + m.sentFor now ⟨id, i.repair⟩ := by
  have hNeed := sentFor_add_inflightAt_le now h hEvaluation i
  have hOwn : (UInt64.ofNat (m.sentFor now ⟨id, i.repair⟩)).toNat =
      m.sentFor now ⟨id, i.repair⟩ := UInt64.toNat_ofNat_of_lt' (by omega)
  have hSome : UInt64.ofNat (m.sentFor now ⟨id, i.repair⟩) ≠ 0 := fun hZero => by
    rw [hZero] at hOwn
    exact hSent hOwn.symm
  -- The sum stays within the need, so it does not wrap around.
  have hSum : ((m.settledQueue now).current id i.repair now.steady).1.toNat +
      m.sentFor now ⟨id, i.repair⟩ < UInt64.size := by
    have hFlying : ((m.settledQueue now).current id i.repair now.steady).1.toNat =
      (m.settledQueue now).inflightAt id i.repair now.steady := rfl
    omega
  rw [RepairQueue.inflightAt_eq_number, Inflight.number_eq, get?_cycle_of_sent now h hSome,
    Option.elim_some, if_pos ht, UInt64.toNat_add, hOwn, Nat.mod_eq_of_lt hSum]
  rfl

theorem inflightAt_cycle_of_kept {id : ContainerId} {i : Imbalance}
    (hNothing : UInt64.ofNat (m.sentFor now ⟨id, i.repair⟩) = 0) {t : Nat}
    (ht : now.steady ≤ t) :
    (m.cycle now).2.queue.inflightAt id i.repair t =
      (m.settledQueue now).inflightAt id i.repair t := by
  cases hEvaluation : (m.evaluations now).get? id with
  | none =>
    have hUnknown : (m.evaluations now).get? (⟨id, i.repair⟩ : RepairKey).major = none :=
      hEvaluation
    exact Inflight.number_congr (get?_cycle_of_unknown now hUnknown) t
  | some e =>
    rcases (repaired_cycle now h hEvaluation i).kept hNothing with hSame | hLapsed
    · exact Inflight.number_congr hSame t
    · exact Inflight.number_of_get?_eq_filter hLapsed ht

theorem failed_cycle (hOpen : m.queue.closed = false) : (m.cycle now).1.failed = 0 := by
  have hRegular : ∀ e ∈ (m.evaluations now).values, e.Regular := fun _ he =>
    (proper_evaluations now h).regular he
  exact congrArg Prod.fst (RepairQueue.settleAll_of_open hRegular hOpen)

/-- A round with an open queue accounts for all that it attempts. -/
theorem accounts_cycle (hOpen : m.queue.closed = false) :
    m.Accounts now (m.cycle now).1 (m.cycle now).2 := by
  have hDispatched : (m.cycle now).1.dispatched = (m.sentIn now).length := by
    rw [← Plan.countOf_add (m.sentIn now), ← sent_by_kind now h, ← sent_by_kind now h,
      ← sent_by_kind now h]
    rfl
  have hFront : (m.sentIn now).length ≤ (m.attempts now).length := List.length_take_le' _ _
  have hSuppressed : (m.cycle now).1.suppressed =
      (m.batch now).foldr (fun w n => m.heldBack now w + n) 0 := by
    rw [suppressed_cycle now h, Dispatch.heldBackIn_eq_foldr]
    rfl
  have hCounters : ∀ c, (m.cycle now).2.metrics.counter c =
      m.metrics.counter c + UInt64.ofNat ((m.cycle now).1.figure c) :=
    fun c => m.counter_cycle now fun _ => failed_cycle now h hOpen
  refine {
    ordered := ordered_closes now h
    trimmed := fun id e hEvaluation i t => inflightAt_settledQueue now h hEvaluation i t
    attempted := attempts_eq now
    sent := rfl
    outbox := (dispatchRound_dispatches now h).1
    byKind := ⟨sent_by_kind now h .close, sent_by_kind now h .replicate, sent_by_kind now h .delete⟩
    dispatched := hDispatched
    dropped := ?_
    suppressed := hSuppressed
    failed := failed_cycle now h hOpen
    joined := fun id i hSent => get?_cycle_of_sent now h hSent
    grown := fun id e hEvaluation i hWord hSent t ht =>
      inflightAt_cycle_of_sent now h hEvaluation hWord hSent ht
    kept := fun id i hNothing t ht => inflightAt_cycle_of_kept now h hNothing ht
    counters := hCounters
    oneByOne := fun kind => ?_
    drops := ?_
    holds := ?_ }
  · rw [hDispatched, dropped_cycle now h]
    omega
  · rw [hCounters, Metrics.counter_foldl_recordDispatched, ← sent_by_kind now h]
    cases kind <;> rfl
  · rw [hCounters, Metrics.counter_foldl_dropped, List.length_drop, ← dropped_cycle now h]
    rfl
  · rw [hCounters, Metrics.counter_foldl_held, ← hSuppressed]
    rfl

end Sound

end Manager

/-- Every directive of a round is accounted for, whatever operations the store and the queue have been
through and whatever registry, metrics and outbox there are, as long as the queue is open; and the round
comes to its end if the clock can hold the deadline of the repairs. -/
theorem round_accounts_for_directives (config : Config) (stored : List Store.Operation)
    (registry : Registry) (queued : List RepairQueue.Operation) (metrics : Metrics)
    (outbox : Outbox) (now : Moment)
    (hOpen : (RepairQueue.empty.performAll queued).closed = false) :
    let m : Manager := {
      config, registry, metrics, outbox
      store := Store.empty.run stored
      queue := RepairQueue.empty.performAll queued }
    (∀ report after, m.cycle? now = some (report, after) → m.Accounts now report after) ∧
      (m.canStamp now = true → ∃ report after, m.cycle? now = some (report, after)) := by
  intro m
  have hSound : m.Sound := ⟨Store.keyed_empty.run stored, RepairQueue.sound_of_open
    (RepairQueue.sound_performAll WaitingLine.sound_empty queued) hOpen⟩
  refine ⟨fun report after hDone => ?_, fun hStamp => ?_⟩
  · have hAccounts := Manager.accounts_cycle now hSound hOpen
    rwa [← m.eq_cycle_of_cycle? now hDone] at hAccounts
  · exact ⟨_, _, m.cycle?_of_canStamp now hStamp⟩

/-- Three copies are missing.  One of them is in flight and is held back, one is sent, and one finds no
place in the outbox. -/
theorem round_accounts_for_directives_of_three :
    let now : Moment := ⟨⟨⟨2024, 1, 1, 0, 0, 0, 0⟩, by decide⟩, 1⟩
    let stored : List Store.Operation :=
      [.add ⟨⟨1⟩, .closed, 4, 0⟩, .report ⟨⟨1⟩, "a", .closed, some 7, some "a", false⟩]
    let registry : Registry :=
      (Registry.empty.addNode ⟨"a", "", ⟨.inService, .healthy, none⟩⟩).toOption.getD .empty
    let queued : List RepairQueue.Operation :=
      [.record ⟨1⟩ .replicate 1 0 Config.default.inflightTimeout]
    let m : Manager := {
      config := .default, registry, metrics := .empty, outbox := .ofCapacity 1
      store := Store.empty.run stored
      queue := RepairQueue.empty.performAll queued }
    (RepairQueue.empty.performAll queued).closed = false ∧
      ∃ report after, m.cycle? now = some (report, after) ∧ report.suppressed = 1 ∧
        report.dispatched = 1 ∧ report.dropped = 1 ∧
        after.queue.inflightAt ⟨1⟩ .replicate 1 = 2 ∧
        after.metrics.counter .dropped = m.metrics.counter .dropped + 1 := by
  intro now stored registry queued
  have hOpen : (RepairQueue.empty.performAll queued).closed = false := rfl
  have hAll := round_accounts_for_directives .default stored registry queued .empty (.ofCapacity 1)
    now hOpen
  -- The manager is computed for the facts that are read off it, and is a variable otherwise.
  obtain ⟨m, hm⟩ : ∃ m : Manager, {
      config := .default, registry, metrics := .empty, outbox := .ofCapacity 1
      store := Store.empty.run stored
      queue := RepairQueue.empty.performAll queued } = m := ⟨_, rfl⟩
  have hStamp : m.canStamp now = true := by
    rw [← hm]
    decide +kernel
  have hHeld : (m.batch now).foldr (fun w n => m.heldBack now w + n) 0 = 1 := by
    rw [← hm]
    decide +kernel
  have hLengths : (m.attempts now).length = 2 ∧ (m.sentIn now).length = 1 := by
    rw [← hm]
    decide +kernel
  have hFlying : (m.settledQueue now).inflightAt ⟨1⟩ .replicate now.steady = 1 ∧
      m.sentFor now ⟨⟨1⟩, .replicate⟩ = 1 := by
    rw [← hm]
    decide +kernel
  have hNeed : ((m.evaluations now).get? ⟨1⟩).map (Evaluation.needed · .shortage) = some 3 := by
    rw [← hm]
    decide +kernel
  have hTime : 1 < now.steady + m.config.inflightTimeout.totalNanos := by
    rw [← hm]
    decide +kernel
  rw [hm] at hAll ⊢
  obtain ⟨hAccounts, hEnds⟩ := hAll
  obtain ⟨report, after, hDone⟩ := hEnds hStamp
  have hRound : m.Accounts now report after := hAccounts report after hDone
  obtain ⟨e, hEvaluation, hThree⟩ := Option.map_eq_some_iff.1 hNeed
  have hDispatched : report.dispatched = 1 := hRound.dispatched.trans hLengths.2
  have hDropped : report.dropped = 1 := by
    have hSum := hRound.dropped
    omega
  refine ⟨hOpen, report, after, hDone, hRound.suppressed.trans hHeld, hDispatched, hDropped, ?_, ?_⟩
  · have hGrown := hRound.grown ⟨1⟩ e hEvaluation .shortage (by rw [hThree]; decide)
      (by rw [show Imbalance.shortage.repair = .replicate from rfl, hFlying.2]; decide) 1 hTime
    exact hGrown.trans (congrArg₂ (· + ·) hFlying.1 hFlying.2)
  · have hCounter := hRound.counters .dropped
    rwa [show report.figure .dropped = 1 from hDropped] at hCounter

end ReplicaUpkeep
