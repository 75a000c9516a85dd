import ReplicaUpkeep.Proofs.Manager.Dispatching
import ReplicaUpkeep.Proofs.Store.Keyed

/-!
# One round of a manager

A round brings the queue in line with all containers, sends their closes, and repairs a batch.  Here it
is taken apart once: who is in the batch, which directives are attempted and in which order, how many of
them the outbox takes, and what waits and flies afterwards.  Nothing that is proved of rounds needs to
look into the round again.
-/

namespace ReplicaUpkeep

namespace Proper

variable {evaluations : Table ContainerId Evaluation} (h : Proper evaluations)
include h

theorem regular {e : Evaluation} (he : e ∈ evaluations.values) : e.Regular := by
  obtain ⟨id, hEntry⟩ := (evaluations.mem_values_iff e).1 he
  exact (h id e hEntry).1

theorem get?_id {e : Evaluation} (he : e ∈ evaluations.values) : evaluations.get? e.id = some e := by
  obtain ⟨id, hEntry⟩ := (evaluations.mem_values_iff e).1 he
  rw [(h id e hEntry).2, hEntry]

theorem map_id_values : evaluations.values.map Evaluation.id = evaluations.keys := by
  rw [Table.values, Table.keys, List.map_map]
  refine List.map_congr_left fun entry hEntry => ?_
  exact (h entry.1 entry.2 ((Table.mem_entries_iff _ _ _).1 hEntry)).2

/-- Each container is evaluated once, in ascending order. -/
theorem id_ascending : (evaluations.values.map Evaluation.id).Pairwise (· < ·) := by
  rw [map_id_values h]
  exact evaluations.keys_ascending

theorem nodup_id : (evaluations.values.map Evaluation.id).Nodup := by
  rw [map_id_values h]
  exact evaluations.keys_nodup

end Proper

/-- Everything that a round does to the repairs of one container and kind.  What is sent continues
the list behind what is in flight; if anything is sent, all of it flies together from now on, and
otherwise only a flight that has lapsed may go. -/
structure Repaired (listed : List Directive) (before after : Option Flight) (flying : UInt64)
    (now : Nat) (ttl : Duration) (sent : List Directive) : Prop where
  continues : sent <+: listed.drop flying.toNat
  joined : UInt64.ofNat sent.length ≠ 0 →
    after = some ⟨flying + UInt64.ofNat sent.length, now + ttl.totalNanos⟩
  kept : UInt64.ofNat sent.length = 0 →
    after = before ∨ after = before.filter fun flight => now < flight.deadline

namespace Manager

/-- A manager whose containers stand under their own numbers and whose queue is sound. -/
structure Sound (m : Manager) : Prop where
  keyed : m.store.Keyed
  queue : m.queue.Sound

theorem sound_of (config : Config) {store : Store} (hKeyed : store.Keyed) (registry : Registry) :
    (Manager.of config store registry).Sound where
  keyed := hKeyed
  queue := RepairQueue.sound_empty

variable (m : Manager) (now : Moment)

/-- The directives of a kind that a container's evaluation at a moment lists. -/
def listed (key : RepairKey) : List Directive :=
  ((m.evaluations now).get? key.major).elim [] fun e => e.ofKind key.minor

/-- The queue of a round once it is in line with every container. -/
def settledQueue : RepairQueue :=
  (m.queue.settleAll (m.evaluations now).values).2

/-- The waiters that a round repairs. -/
def batch : List Waiter :=
  (m.settledQueue now).line.toList.take m.config.maxRepairs.toNat

/-- The repairs that a round attempts for a waiter. -/
def attempt (w : Waiter) : List Directive :=
  Dispatch.attempt (m.settledQueue now) now.steady (m.evaluations now) w

/-- The closes of every container. -/
def closes : List Directive :=
  (m.evaluations now).values.flatMap fun e => e.ofKind .close

/-- The repairs that a round attempts for its batch. -/
def repairs : List Directive :=
  (m.batch now).flatMap (m.attempt now)

/-- All that a round attempts to send: closes first, then repairs. -/
def attempts : List Directive :=
  m.closes now ++ m.repairs now

/-- What the outbox takes of a round's attempts. -/
def sentIn : List Directive :=
  (m.attempts now).take m.outbox.room

/-- A round that has sent its closes and taken its batch out of the line. -/
def opening : Dispatch :=
  let counted := countEvaluations m.metrics (m.evaluations now).values
  { ((Dispatch.start (m.settledQueue now) m.outbox counted).send (m.closes now)).2 with
    queue := ((m.settledQueue now).dequeue m.config.maxRepairs.toNat).2 }

theorem dispatchRound_eq :
    m.dispatchRound now (m.evaluations now) (m.settledQueue now) =
      (m.opening now).repairAll now.steady m.config.inflightTimeout (m.evaluations now)
        (m.batch now) := by
  have hBatch : ((m.settledQueue now).dequeue m.config.maxRepairs.toNat).1 = m.batch now :=
    WaitingLine.batch_fst _ _
  rw [← hBatch]
  rfl

/-- A round that comes to its end is the unchecked one. -/
theorem eq_cycle_of_cycle? {done : CycleReport × Manager} (h : m.cycle? now = some done) :
    done = m.cycle now := by
  rw [cycle?, Option.ite_none_right_eq_some] at h
  exact (Option.some.inj h.2).symm

/-- A round comes to its end if the clock can show its deadlines. -/
theorem cycle?_of_canStamp (h : m.canStamp now = true) : m.cycle? now = some (m.cycle now) :=
  if_pos (.inr h)

theorem evaluations_congr {m m' : Manager} {now now' : Moment} (hStore : m'.store = m.store)
    (hLookup : m'.lookup now' = m.lookup now) : m'.evaluations now' = m.evaluations now := by
  rw [evaluations, evaluations, hStore, hLookup]

theorem get?_evaluations (id : ContainerId) :
    (m.evaluations now).get? id =
      (m.store.entries.get? id).map fun entry =>
        (Store.snapshotOf entry).evaluate (m.lookup now) :=
  Table.get?_map _ _ _

section Sound

variable {m} (h : m.Sound)
include h

theorem proper_evaluations : Proper (m.evaluations now) := by
  intro id e hEvaluation
  rw [get?_evaluations, Option.map_eq_some_iff] at hEvaluation
  obtain ⟨entry, hEntry, rfl⟩ := hEvaluation
  exact ⟨Snapshot.regular_evaluate _ _, h.keyed id entry hEntry⟩

theorem sound_settledQueue :
    (m.settledQueue now).Sound ∧ (m.settledQueue now).closed = m.queue.closed :=
  RepairQueue.sound_settleAll (fun _ he => (proper_evaluations now h).regular he) h.queue

theorem nodup_key_batch : ((m.batch now).map Waiter.key).Nodup := by
  rw [Waiter.nodup_key_iff, batch, List.map_take]
  exact (WaitingLine.nodup_member_toList (sound_settledQueue now h).1.line).sublist
    (List.take_sublist _ _)

/-- An open queue is in line once its line has followed every evaluation. -/
theorem line_settledQueue (hOpen : m.queue.closed = false) :
    (m.settledQueue now).line =
      (m.evaluations now).values.foldl WaitingLine.follow m.queue.line := by
  have hRegular : ∀ e ∈ (m.evaluations now).values, e.Regular := fun _ he =>
    (proper_evaluations now h).regular he
  rw [settledQueue, RepairQueue.settleAll_of_open hRegular hOpen]

/-- An open queue cuts every flight down to what its container needs. -/
theorem get?_settledQueue (hOpen : m.queue.closed = false) {id : ContainerId} {e : Evaluation}
    (hEvaluation : (m.evaluations now).get? id = some e) (i : Imbalance) :
    (m.settledQueue now).inflight.flights.get? ⟨id, i.repair⟩ =
      Inflight.cap (e.needed i) (m.queue.inflight.flights.get? ⟨id, i.repair⟩) := by
  have hProper := proper_evaluations now h
  have he : e ∈ (m.evaluations now).values := (Table.mem_values_iff _ e).2 ⟨id, hEvaluation⟩
  rw [settledQueue, RepairQueue.settleAll_of_open (fun _ hd => hProper.regular hd) hOpen,
    ← (hProper id e hEvaluation).2]
  exact Inflight.get?_foldl_follow hProper.nodup_id he i _

/-- After the queue is in line, no more repairs count than the container needs. -/
theorem inflightAt_settledQueue {id : ContainerId} {e : Evaluation}
    (hEvaluation : (m.evaluations now).get? id = some e) (i : Imbalance) (t : Nat) :
    (m.settledQueue now).inflightAt id i.repair t =
      min (m.queue.inflightAt id i.repair t) (e.needed i) := by
  have hProper := proper_evaluations now h
  have he : e ∈ (m.evaluations now).values := (Table.mem_values_iff _ e).2 ⟨id, hEvaluation⟩
  rw [← (hProper id e hEvaluation).2]
  exact RepairQueue.inflightAt_settleAll (fun _ hd => hProper.regular hd) hProper.nodup_id h.queue
    he i t

/-! ## What a round sends -/

omit h in
theorem sendAll_attempts :
    m.outbox.sendAll (m.attempts now) =
      ((m.outbox.sendAll (m.closes now)).1 ++
          ((m.opening now).outbox.sendAll (m.repairs now)).1,
        ((m.opening now).outbox.sendAll (m.repairs now)).2) :=
  Outbox.sendAll_append _ _ _

omit h in
theorem sentIn_eq :
    m.sentIn now = (m.outbox.sendAll (m.closes now)).1 ++
      ((m.opening now).outbox.sendAll (m.repairs now)).1 :=
  congrArg Prod.fst (m.sendAll_attempts now)

/-- The dispatching of a round is the sending of its attempts in one go. -/
theorem dispatchRound_dispatches :
    let done := m.dispatchRound now (m.evaluations now) (m.settledQueue now)
    done.outbox = (m.outbox.sendAll (m.attempts now)).2 ∧ done.accepted = m.sentIn now ∧
      done.dropped = (m.attempts now).length - (m.sentIn now).length ∧
      done.suppressed = Dispatch.heldBackIn (m.settledQueue now) now.steady (m.evaluations now)
        (m.batch now) := by
  -- Taking the batch out of the line leaves what flies alone, so the attempts stay the same.
  have hRepairs : (m.batch now).flatMap
      (Dispatch.attempt (m.opening now).queue now.steady (m.evaluations now)) = m.repairs now := rfl
  obtain ⟨hOutbox, hAccepted, hDropped, hSuppressed⟩ :=
    Dispatch.repairAll_dispatches now.steady m.config.inflightTimeout (m.evaluations now)
      (nodup_key_batch now h) (m.opening now)
  rw [← dispatchRound_eq, hRepairs] at hOutbox hAccepted hDropped
  rw [← dispatchRound_eq] at hSuppressed
  refine ⟨?_, ?_, ?_, ?_⟩
  · rw [hOutbox, sendAll_attempts]
  · rw [hAccepted, sentIn_eq]
    rfl
  · have hStart : (m.opening now).dropped =
        (m.closes now).length - (m.outbox.sendAll (m.closes now)).1.length :=
      Nat.zero_add _
    have hFirst : (m.outbox.sendAll (m.closes now)).1.length ≤ (m.closes now).length :=
      List.length_take_le' _ _
    have hRest : ((m.opening now).outbox.sendAll (m.repairs now)).1.length ≤
        (m.repairs now).length := List.length_take_le' _ _
    rw [hDropped, hStart, sentIn_eq, attempts, List.length_append, List.length_append]
    omega
  · have hHeld : Dispatch.heldBackIn (m.opening now).queue now.steady (m.evaluations now)
        (m.batch now) = Dispatch.heldBackIn (m.settledQueue now) now.steady (m.evaluations now)
          (m.batch now) := Dispatch.heldBackIn_congr fun _ _ => rfl
    rw [hSuppressed, hHeld]
    exact Nat.zero_add _

/-- A round puts the first of its attempts, as many as there is room for, behind what waited. -/
theorem waiting_cycle :
    (m.cycle now).2.outbox.waiting = m.outbox.waiting ++ m.sentIn now :=
  congrArg Outbox.waiting (dispatchRound_dispatches now h).1

theorem dropped_cycle :
    (m.cycle now).1.dropped = (m.attempts now).length - (m.sentIn now).length :=
  (dispatchRound_dispatches now h).2.2.1

theorem suppressed_cycle :
    (m.cycle now).1.suppressed = Dispatch.heldBackIn (m.settledQueue now) now.steady
      (m.evaluations now) (m.batch now) :=
  (dispatchRound_dispatches now h).2.2.2

/-- A round that drops nothing sends all that it attempts. -/
theorem sentIn_eq_attempts (hDropped : (m.cycle now).1.dropped = 0) :
    m.sentIn now = m.attempts now := by
  rw [dropped_cycle now h] at hDropped
  refine List.take_of_length_le ?_
  have hLength : (m.sentIn now).length = min m.outbox.room (m.attempts now).length :=
    List.length_take
  omega

theorem sent_by_kind (kind : DirectiveKind) :
    Plan.countOf (m.dispatchRound now (m.evaluations now) (m.settledQueue now)).accepted kind =
      Plan.countOf (m.sentIn now) kind := by
  rw [(dispatchRound_dispatches now h).2.1]

/-! ## The repairs of one container -/

omit h in
/-- No close counts as a repair. -/
theorem filter_key_closes (id : ContainerId) (i : Imbalance) :
    (m.closes now).filter (fun d => d.key = ⟨id, i.repair⟩) = [] := by
  refine List.filter_eq_nil_iff.2 fun d hd => ?_
  obtain ⟨e, -, hClose⟩ := List.mem_flatMap.1 hd
  have hKind : d.kind = .close := by simpa using (List.mem_filter.1 hClose).2
  cases i <;> simp [Directive.key, hKind, Imbalance.repair]

/-- Among the attempts of a round, the repairs under a key are those of its waiter. -/
theorem filter_key_attempts {w : Waiter} (hw : w ∈ m.batch now) :
    (m.attempts now).filter (fun d => d.key = w.key) = m.attempt now w := by
  have hCloses := m.filter_key_closes now w.container w.imbalance
  rw [← Waiter.key] at hCloses
  rw [attempts, List.filter_append, hCloses, List.nil_append]
  exact Dispatch.filter_key_flatMap_attempt (proper_evaluations now h) _ _ (nodup_key_batch now h) hw

/-- No repair is attempted for one who is not in the batch. -/
theorem filter_key_attempts_eq_nil {id : ContainerId} {i : Imbalance}
    (hNobody : ∀ w ∈ m.batch now, w.key ≠ ⟨id, i.repair⟩) :
    (m.attempts now).filter (fun d => d.key = ⟨id, i.repair⟩) = [] := by
  rw [attempts, List.filter_append, filter_key_closes, List.nil_append]
  exact Dispatch.filter_key_flatMap_attempt_eq_nil (proper_evaluations now h) _ _ hNobody

/-- Nothing is sent to repair a container that is not known. -/
theorem filter_key_sentIn_eq_nil {id : ContainerId} (hUnknown : (m.evaluations now).get? id = none)
    (i : Imbalance) : (m.sentIn now).filter (fun d => d.key = ⟨id, i.repair⟩) = [] := by
  have hAttempts : (m.attempts now).filter (fun d => d.key = ⟨id, i.repair⟩) = [] := by
    by_cases hWaits : ∃ w ∈ m.batch now, w.key = ⟨id, i.repair⟩
    · obtain ⟨w, hw, hKey⟩ := hWaits
      have hOwn : w.container = id := congrArg OrderedPair.major hKey
      rw [← hKey, filter_key_attempts now h hw, attempt, Dispatch.attempt, Dispatch.wanted, hOwn,
        hUnknown]
      exact List.drop_nil
    · exact filter_key_attempts_eq_nil now h fun w hw hSame => hWaits ⟨w, hw, hSame⟩
  exact m.outbox.filter_sendAll_eq_nil hAttempts

/-- Nothing is sent for one who waits and is not in the batch. -/
theorem filter_key_sentIn_eq_nil_of_notMem {w : Waiter} (hWaits : w ∈ (m.settledQueue now).line.toList)
    (hNot : w ∉ m.batch now) : (m.sentIn now).filter (fun d => d.key = w.key) = [] := by
  have hNobody : ∀ v ∈ m.batch now, v.key ≠ w.key := by
    intro v hv hSame
    have hLine := (sound_settledQueue now h).1.line
    have hEqual := WaitingLine.eq_of_member_eq hLine (List.mem_of_mem_take hv) hWaits
      ((v.key_eq_iff w).1 hSame)
    exact hNot (hEqual ▸ hv)
  have hAttempts := filter_key_attempts_eq_nil now h hNobody
  exact m.outbox.filter_sendAll_eq_nil hAttempts

omit h in
theorem queue_cycle :
    (m.cycle now).2.queue = ((m.opening now).repairAll now.steady m.config.inflightTimeout
      (m.evaluations now) (m.batch now)).queue :=
  congrArg Dispatch.queue (m.dispatchRound_eq now)

omit h in
/-- Whoever was not in the batch waits on. -/
theorem line_cycle :
    (m.cycle now).2.queue.line =
      (WaitingLine.batch m.config.maxRepairs.toNat (m.settledQueue now).line).2 := by
  rw [queue_cycle]
  exact (Dispatch.line_repairAll _ _).1

omit h in
theorem closed_cycle : (m.cycle now).2.queue.closed = (m.settledQueue now).closed := by
  rw [queue_cycle]
  exact (Dispatch.line_repairAll _ _).2

omit h in
/-- What flies for one who is not in the batch goes on flying. -/
theorem get?_cycle_of_notMem {key : RepairKey} (hKey : ∀ w ∈ m.batch now, key ≠ w.key) :
    (m.cycle now).2.queue.inflight.flights.get? key =
      (m.settledQueue now).inflight.flights.get? key := by
  rw [queue_cycle, Dispatch.get?_repairAll_of_notMem hKey]
  rfl

omit h in
/-- What flies for an unknown container goes on flying. -/
theorem get?_cycle_of_unknown {key : RepairKey}
    (hUnknown : (m.evaluations now).get? key.major = none) :
    (m.cycle now).2.queue.inflight.flights.get? key =
      (m.settledQueue now).inflight.flights.get? key := by
  rw [queue_cycle, Dispatch.get?_repairAll_of_unknown hUnknown]
  rfl

/-- What flies for a waiter of the batch is joined by what was sent for it. -/
theorem get?_cycle {w : Waiter} (hw : w ∈ m.batch now) {e : Evaluation}
    (hEvaluation : (m.evaluations now).get? w.container = some e) :
    (m.cycle now).2.queue.inflight.flights.get? w.key =
      let own := ((m.sentIn now).filter fun d => d.key = w.key).length
      if UInt64.ofNat own = 0 then
        ((m.settledQueue now).inflight.flights.get? w.key).filter
          (fun flight => now.steady < flight.deadline)
      else some ⟨((m.settledQueue now).current w.container w.imbalance.repair now.steady).1 +
          UInt64.ofNat own,
        now.steady + m.config.inflightTimeout.totalNanos⟩ := by
  have hCloses : (m.outbox.sendAll (m.closes now)).1.filter (fun d => d.key = w.key) = [] :=
    m.outbox.filter_sendAll_eq_nil (m.filter_key_closes now w.container w.imbalance)
  rw [queue_cycle, sentIn_eq, List.filter_append, hCloses, List.nil_append]
  exact Dispatch.get?_repairAll now.steady m.config.inflightTimeout (proper_evaluations now h)
    (nodup_key_batch now h) hw hEvaluation (m.opening now)

/-- What a round does to the repairs of an evaluated container. -/
theorem repaired_cycle {id : ContainerId} {e : Evaluation}
    (hEvaluation : (m.evaluations now).get? id = some e) (i : Imbalance) :
    Repaired (e.ofKind i.repair)
      ((m.settledQueue now).inflight.flights.get? ⟨id, i.repair⟩)
      ((m.cycle now).2.queue.inflight.flights.get? ⟨id, i.repair⟩)
      ((m.settledQueue now).current id i.repair now.steady).1
      now.steady m.config.inflightTimeout
      ((m.sentIn now).filter fun d => d.key = ⟨id, i.repair⟩) := by
  have hPrefix : (m.sentIn now).filter (fun d => d.key = ⟨id, i.repair⟩) <+:
      (m.attempts now).filter (fun d => d.key = ⟨id, i.repair⟩) :=
    (List.take_prefix _ _).filter _
  by_cases hWaits : ∃ w ∈ m.batch now, w.key = ⟨id, i.repair⟩
  · obtain ⟨w, hw, hKey⟩ := hWaits
    have hOwn : w.container = id := congrArg OrderedPair.major hKey
    have hRepair : w.imbalance.repair = i.repair := congrArg OrderedPair.minor hKey
    have hAttempt := filter_key_attempts now h hw
    have hFlight := get?_cycle now h hw (hOwn ▸ hEvaluation)
    rw [hKey, hOwn, hRepair] at hFlight
    rw [hKey, attempt, Dispatch.attempt, Dispatch.wanted, hOwn, hEvaluation, hRepair] at hAttempt
    rw [hAttempt] at hPrefix
    refine ⟨hPrefix, fun hSome => ?_, fun hNone => Or.inr ?_⟩
    · rw [hFlight]
      exact if_neg hSome
    · rw [hFlight]
      exact if_pos hNone
  · have hNobody : ∀ w ∈ m.batch now, w.key ≠ ⟨id, i.repair⟩ := fun w hw hSame =>
      hWaits ⟨w, hw, hSame⟩
    rw [filter_key_attempts_eq_nil now h hNobody, List.prefix_nil] at hPrefix
    rw [hPrefix]
    refine ⟨List.nil_prefix, fun hSome => absurd rfl hSome, fun _ => Or.inl ?_⟩
    exact get?_cycle_of_notMem now fun w hw hSame => hNobody w hw hSame.symm

/-- A round keeps a manager sound, and its queue as open as it was. -/
theorem sound_cycle :
    (m.cycle now).2.Sound ∧ (m.cycle now).2.queue.closed = m.queue.closed := by
  obtain ⟨hSettled, hSame⟩ := sound_settledQueue now h
  have hClosed := (closed_cycle (m := m) now).trans hSame
  refine ⟨⟨h.keyed, ?_, fun hOpen => ?_, fun hOpen key => ?_⟩, hClosed⟩
  · rw [line_cycle]
    exact WaitingLine.sound_batch _ hSettled.line
  · rw [line_cycle, WaitingLine.toList_batch,
      hSettled.nobody (hSame.trans (hClosed.symm.trans hOpen)), List.drop_nil]
  · have hNobody := hSettled.nobody (hSame.trans (hClosed.symm.trans hOpen))
    have hBatch : m.batch now = [] := by rw [batch, hNobody, List.take_nil]
    rw [get?_cycle_of_notMem now (by simp [hBatch])]
    exact hSettled.nothing (hSame.trans (hClosed.symm.trans hOpen)) key

end Sound

end Manager

end ReplicaUpkeep
