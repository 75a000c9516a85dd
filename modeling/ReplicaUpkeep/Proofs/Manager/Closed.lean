import ReplicaUpkeep.Proofs.Manager.Limits
import ReplicaUpkeep.Proofs.Plan.Conservation

/-!
# Rounds with a closed queue

A closed queue refuses every container that is off balance, and the refusal comes before anything else is
done for the container: it is counted as failed and its flights are not looked at.  A container that is in
balance is not put anywhere and does not fail.  None of this touches the closes, which do not come through
the queue, nor what the evaluations are.  So a round sends the closes that it would send with any queue,
and nothing else.

Nobody waits in a closed queue.  What flies in it was recorded by somebody after it was closed: closing
forgets all flights and a round records none, but a queue does not refuse to record a flight as it refuses
to let a container wait.
-/

namespace ReplicaUpkeep

/-- A call keeps it that nobody stands on a closed roster. -/
theorem Roster.nobody_handle {r : Roster} (h : r.closed = true → r.waiters = []) (call : LineCall) :
    (r.handle call).2.closed = true → (r.handle call).2.waiters = [] := by
  cases call with
  | enqueue id i priority =>
    rw [handle]
    split
    · exact h
    · rename_i hOpen
      split <;> exact fun hClosed => absurd hClosed hOpen
  | dequeue n =>
    intro hClosed
    rw [handle, h hClosed, List.drop_nil]
  | remove id i =>
    intro hClosed
    rw [handle, h hClosed, List.filter_nil]
  | forget id =>
    intro hClosed
    rw [handle, h hClosed, List.filter_nil]
  | close => exact fun _ => rfl
  | contains id i => exact h
  | count i => exact h
  | isEmpty => exact h

namespace Inflight

theorem get?_foldl_follow_eq_none {f : Inflight} {key : RepairKey}
    (hNone : f.flights.get? key = none) (es : List Evaluation) :
    (es.foldl follow f).flights.get? key = none := by
  induction es generalizing f with
  | nil => exact hNone
  | cons e rest ih => exact ih (get?_follow_eq_none hNone e)

end Inflight

namespace RepairQueue

/-! ## Operations on a closed queue -/

/-- What an operation records as in flight. -/
def Operation.recorded? : Operation → Option RepairKey
  | .record id kind .. => some ⟨id, kind⟩
  | _ => none

/-- Nobody waits in a queue that operations have closed. -/
theorem idle_performAll {q : RepairQueue} (hSound : q.line.Sound)
    (hNobody : q.closed = true → q.line.toList = []) (operations : List Operation)
    (hClosed : (q.performAll operations).closed = true) : (q.performAll operations).Idle := by
  induction operations generalizing q with
  | nil => exact ⟨hSound, hClosed, hNobody hClosed⟩
  | cons op rest ih =>
    refine ih (sound_performAll hSound [op]) ?_ hClosed
    cases op with
    | call call =>
      have hRoster := Roster.nobody_handle (r := q.roster) hNobody call
      rwa [handle_roster hSound] at hRoster
    | ask id kind now => exact hNobody
    | record id kind count now ttl => exact hNobody
    | trim id kind needed => exact hNobody

/-- Nothing flies that nobody recorded. -/
theorem get?_performAll_eq_none {q : RepairQueue} {key : RepairKey}
    (hNone : q.inflight.flights.get? key = none) {operations : List Operation}
    (hQuiet : ∀ op ∈ operations, op.recorded? ≠ some key) :
    (q.performAll operations).inflight.flights.get? key = none := by
  induction operations generalizing q with
  | nil => exact hNone
  | cons op rest ih =>
    refine ih ?_ fun other hOther => hQuiet other (List.mem_cons_of_mem _ hOther)
    rw [get?_perform, hNone]
    cases op with
    | call call => cases call <;> simp [Operation.flight]
    | ask id kind now => simp [Operation.flight]
    | record id kind count now ttl =>
      have hOther : key ≠ ⟨id, kind⟩ := fun hKey =>
        hQuiet (.record id kind count now ttl) List.mem_cons_self (congrArg some hKey.symm)
      rw [Operation.flight, if_neg fun hSame => hOther hSame.2]
    | trim id kind needed => simp [Operation.flight, Inflight.cap]

end RepairQueue

/-! ## Rounds -/

/-- A container is at a stage that is repaired and has not as many good replicas as wanted. -/
def Store.OffBalance (entry : StoreEntry) : Prop :=
  (entry.container.state = .quasiClosed ∨ entry.container.state = .closed) ∧
    (Store.snapshotOf entry).count .good ≠ (Store.snapshotOf entry).factor

instance (entry : StoreEntry) : Decidable (Store.OffBalance entry) :=
  inferInstanceAs (Decidable (_ ∧ _))

namespace Manager

/-- A round that evaluates every container, sends closes and nothing else, and leaves the queue as idle as
it was. -/
structure ClosesOnly (m : Manager) (now : Moment) (report : CycleReport) (after : Manager) : Prop where
  evaluated : report.evaluated = m.store.entries.size
  /-- The containers that the queue refuses are those off balance. -/
  failed : report.failed = m.store.entries.values.countP fun entry => Store.OffBalance entry
  attempted : m.attempts now = m.closes now
  outbox : after.outbox = (m.outbox.sendAll (m.closes now)).2
  closes : report.closes = min m.outbox.room (m.closes now).length
  dropped : report.closes + report.dropped = (m.closes now).length
  replicates : report.replicates = 0
  deletes : report.deletes = 0
  idle : after.queue.Idle
  /-- Nothing flies that did not before. -/
  grounded : ∀ key, m.queue.inflight.flights.get? key = none →
    after.queue.inflight.flights.get? key = none

variable {m : Manager} (now : Moment)

/-- Evaluations fail in an idle queue for the containers off balance. -/
theorem countP_isOffBalance_evaluations :
    (m.evaluations now).values.countP Evaluation.isOffBalance =
      m.store.entries.values.countP fun entry => Store.OffBalance entry := by
  have hValues : (m.evaluations now).values = m.store.entries.values.map fun entry =>
      (Store.snapshotOf entry).evaluate (m.lookup now) := by
    simp [evaluations, Table.values, Table.map]
  rw [hValues, List.countP_map]
  refine List.countP_congr fun entry _ => ?_
  rw [Function.comp_apply, Evaluation.isOffBalance, Bool.and_eq_true, decide_eq_true_eq,
    decide_eq_true_eq]
  exact and_congr (ContainerState.isRepairable_iff _) Iff.rfl

section Idle

variable (h : m.queue.Idle)
include h

theorem settledQueue_of_idle :
    m.settledQueue now = { m.queue with
      inflight := ((m.evaluations now).values.filter fun e => !e.isOffBalance).foldl
        Inflight.follow m.queue.inflight } :=
  congrArg Prod.snd (h.settleAll _)

theorem idle_settledQueue : (m.settledQueue now).Idle := by
  rw [settledQueue_of_idle now h]
  exact ⟨h.line, h.closed, h.nobody⟩

theorem batch_of_idle : m.batch now = [] := by
  rw [batch, (idle_settledQueue now h).nobody, List.take_nil]

theorem repairs_of_idle : m.repairs now = [] := by
  rw [repairs, batch_of_idle now h, List.flatMap_nil]

/-- Behind its closes the round has nothing to do. -/
theorem dispatchRound_of_idle :
    m.dispatchRound now (m.evaluations now) (m.settledQueue now) = m.opening now := by
  rw [dispatchRound_eq, batch_of_idle now h]
  rfl

theorem idle_cycle : (m.cycle now).2.queue.Idle := by
  have hSettled := idle_settledQueue now h
  refine ⟨?_, ?_, ?_⟩
  · rw [line_cycle]
    exact WaitingLine.sound_batch _ hSettled.line
  · rw [closed_cycle]
    exact hSettled.closed
  · rw [line_cycle, WaitingLine.toList_batch, hSettled.nobody, List.drop_nil]

theorem grounded_cycle {key : RepairKey} (hNone : m.queue.inflight.flights.get? key = none) :
    (m.cycle now).2.queue.inflight.flights.get? key = none := by
  rw [get?_cycle_of_notMem now (by simp [batch_of_idle now h]), settledQueue_of_idle now h]
  exact Inflight.get?_foldl_follow_eq_none hNone _

theorem closesOnly_cycle : m.ClosesOnly now (m.cycle now).1 (m.cycle now).2 := by
  have hFailed : (m.queue.settleAll (m.evaluations now).values).1 =
      (m.evaluations now).values.countP Evaluation.isOffBalance :=
    congrArg Prod.fst (h.settleAll _)
  have hRound : (m.cycle now).2.outbox = (m.outbox.sendAll (m.closes now)).2 :=
    congrArg Dispatch.outbox (dispatchRound_of_idle now h)
  have hReport : (m.cycle now).1 = reportOf (m.evaluations now).values
      ((m.evaluations now).values.countP Evaluation.isOffBalance) (m.opening now) := by
    rw [← dispatchRound_of_idle now h, ← hFailed]
    rfl
  have hAttempts : m.attempts now = m.closes now := by
    rw [attempts, repairs_of_idle now h, List.append_nil]
  have hAccepted : (m.opening now).accepted = m.sentIn now := by
    rw [sentIn, hAttempts]
    rfl
  have hCloses : (m.cycle now).1.closes = Plan.countOf (m.sentIn now) .close := by
    rw [hReport, ← hAccepted]
    rfl
  have hCopies : (m.cycle now).1.replicates = Plan.countOf (m.sentIn now) .replicate := by
    rw [hReport, ← hAccepted]
    rfl
  have hDeletes : (m.cycle now).1.deletes = Plan.countOf (m.sentIn now) .delete := by
    rw [hReport, ← hAccepted]
    rfl
  have hDropped : (m.cycle now).1.dropped = (m.closes now).length - (m.sentIn now).length := by
    rw [hReport, ← hAccepted]
    exact Nat.zero_add _
  have hLength : (m.sentIn now).length = min m.outbox.room (m.closes now).length := by
    rw [sentIn, hAttempts, List.length_take]
  -- The closes among what is sent are all that is sent.
  have hKinds := Plan.countOf_add (m.sentIn now)
  rw [← hCloses, ← hCopies, ← hDeletes] at hKinds
  rw [countOf_close_sentIn] at hCloses
  refine ⟨?_, ?_, hAttempts, hRound, hCloses, by omega, by omega, by omega, idle_cycle now h,
    fun key hNone => grounded_cycle now h hNone⟩
  · rw [hReport]
    simp [reportOf, evaluations, Table.values, Table.map, Table.size]
  · rw [hReport]
    exact countP_isOffBalance_evaluations now

end Idle

end Manager

/-- A closed queue never costs a close.  Whatever operations the store and the queue have been through,
and whatever registry, metrics and outbox there are, as soon as the queue is closed: a round comes to its
end, has evaluated every container, counts those off balance as failed, and attempts the closes and
nothing else.  Any manager of the same store and registry attempts just these first, whatever its queue,
and only repairs behind them.  The queue stays closed and nobody waits in it; nor does any repair fly in it
that was not recorded after the queue was closed. -/
theorem closed_queue_costs_no_close (config : Config) (stored : List Store.Operation)
    (registry : Registry) (queued : List RepairQueue.Operation) (metrics : Metrics)
    (outbox : Outbox) (now : Moment)
    (hClosed : (RepairQueue.empty.performAll queued).closed = true) :
    let m : Manager := {
      config, registry, metrics, outbox
      store := Store.empty.run stored
      queue := RepairQueue.empty.performAll queued }
    (∃ report after, m.cycle? now = some (report, after) ∧ m.ClosesOnly now report after ∧
      ∀ before since, queued = before ++ .call .close :: since →
        ∀ key, (∀ op ∈ since, op.recorded? ≠ some key) →
          after.queue.inflight.flights.get? key = none) ∧
      ∀ o : Manager, o.store = m.store → o.registry = m.registry →
        o.attempts now = m.attempts now ++ o.repairs now ∧ ∀ d ∈ o.repairs now, d.kind ≠ .close := by
  intro m
  have hIdle : m.queue.Idle :=
    RepairQueue.idle_performAll WaitingLine.sound_empty (fun h => by cases h) queued hClosed
  have hRound : m.ClosesOnly now (m.cycle now).1 (m.cycle now).2 :=
    Manager.closesOnly_cycle now hIdle
  have hEnds : m.cycle? now = some (m.cycle now) := by
    rw [Manager.cycle?]
    exact if_pos (.inl (by rw [hRound.replicates, hRound.deletes]))
  refine ⟨⟨(m.cycle now).1, (m.cycle now).2, hEnds, hRound, ?_⟩, fun o hStore hRegistry => ⟨?_, ?_⟩⟩
  · intro before since hQueued key hQuiet
    refine hRound.grounded key ?_
    show (RepairQueue.empty.performAll queued).inflight.flights.get? key = none
    rw [hQueued, RepairQueue.performAll, List.foldl_append, List.foldl_cons]
    exact RepairQueue.get?_performAll_eq_none (Inflight.get?_empty key) hQuiet
  · have hSame : o.evaluations now = m.evaluations now :=
      Manager.evaluations_congr hStore (by rw [Manager.lookup, Manager.lookup, hRegistry])
    rw [hRound.attempted, Manager.attempts, Manager.closes, Manager.closes, hSame]
  · exact fun d hd => o.kind_of_mem_repairs now hd

/-- One container lacks a replica and the other does not, and each has a replica to close.  The queue had a
copy in flight when it was closed.  Both closes are attempted and one finds a place; the first container
counts as failed, and the copy flies no longer. -/
theorem closed_queue_costs_no_close_of_two :
    let now : Moment := ⟨⟨⟨2024, 1, 1, 0, 0, 0, 0⟩, by decide⟩, 1⟩
    let stored : List Store.Operation :=
      [.add ⟨⟨1⟩, .closed, 2, 7⟩, .report ⟨⟨1⟩, "a", .quasiClosed, some 7, some "a", false⟩,
        .add ⟨⟨2⟩, .closed, 1, 7⟩, .report ⟨⟨2⟩, "a", .quasiClosed, some 7, some "a", false⟩]
    let registry : Registry :=
      (Registry.empty.addNode ⟨"a", "", ⟨.inService, .healthy, none⟩⟩).toOption.getD .empty
    let queued : List RepairQueue.Operation :=
      [.record ⟨1⟩ .replicate 1 0 Config.default.inflightTimeout, .call .close]
    let m : Manager := {
      config := .default, registry, metrics := .empty, outbox := .ofCapacity 1
      store := Store.empty.run stored
      queue := RepairQueue.empty.performAll queued }
    (RepairQueue.empty.performAll queued).closed = true ∧
      ∃ report after, m.cycle? now = some (report, after) ∧ report.evaluated = 2 ∧
        report.failed = 1 ∧ report.closes = 1 ∧ report.dropped = 1 ∧
        m.attempts now = [.close ⟨1⟩ "a", .close ⟨2⟩ "a"] ∧
        after.queue.inflight.flights.get? ⟨⟨1⟩, .replicate⟩ = none := by
  intro now stored registry queued m
  have hClosed : (RepairQueue.empty.performAll queued).closed = true := rfl
  obtain ⟨⟨report, after, hDone, hRound, hFlights⟩, -⟩ := closed_queue_costs_no_close .default stored
    registry queued .empty (.ofCapacity 1) now hClosed
  have hSize : m.store.entries.size = 2 := by decide +kernel
  have hOff : (m.store.entries.values.countP fun entry => Store.OffBalance entry) = 1 := by
    decide +kernel
  have hCloses : m.closes now = [.close ⟨1⟩ "a", .close ⟨2⟩ "a"] := by decide +kernel
  have hTaken : report.closes = 1 := by
    rw [hRound.closes]
    decide +kernel
  have hLost : report.closes + report.dropped = 2 := by
    rw [hRound.dropped]
    decide +kernel
  refine ⟨hClosed, report, after, hDone, hRound.evaluated.trans hSize, hRound.failed.trans hOff,
    hTaken, by omega, hRound.attempted.trans hCloses, ?_⟩
  exact hFlights [.record ⟨1⟩ .replicate 1 0 Config.default.inflightTimeout] [] rfl _ (by simp)

/-- Something can fly in a closed queue.  The copy is recorded after the queue was closed, and the
container lacks a replica, so the round is refused before it looks at the flight. -/
theorem flight_recorded_after_close_stays :
    ¬ ∀ (config : Config) (stored : List Store.Operation) (registry : Registry)
      (queued : List RepairQueue.Operation) (metrics : Metrics) (outbox : Outbox) (now : Moment),
        (RepairQueue.empty.performAll queued).closed = true →
          let m : Manager := {
            config, registry, metrics, outbox
            store := Store.empty.run stored
            queue := RepairQueue.empty.performAll queued }
          ∀ key, (m.cycle now).2.queue.inflight.flights.get? key = none := by
  intro hAlways
  let now : Moment := ⟨⟨⟨2024, 1, 1, 0, 0, 0, 0⟩, by decide⟩, 1⟩
  let stored : List Store.Operation :=
    [.add ⟨⟨1⟩, .closed, 2, 7⟩, .report ⟨⟨1⟩, "a", .closed, some 7, some "a", false⟩]
  let registry : Registry :=
    (Registry.empty.addNode ⟨"a", "", ⟨.inService, .healthy, none⟩⟩).toOption.getD .empty
  let queued : List RepairQueue.Operation :=
    [.call .close, .record ⟨1⟩ .replicate 1 0 Config.default.inflightTimeout]
  let m : Manager := {
    config := .default, registry, metrics := .empty, outbox := .ofCapacity 1
    store := Store.empty.run stored
    queue := RepairQueue.empty.performAll queued }
  have hFlies : (m.cycle now).2.queue.inflightAt ⟨1⟩ .replicate 1 = 1 := by decide +kernel
  have hNone : (m.cycle now).2.queue.inflight.flights.get? ⟨⟨1⟩, .replicate⟩ = none :=
    hAlways .default stored registry queued .empty (.ofCapacity 1) now rfl _
  rw [RepairQueue.inflightAt_eq_number, Inflight.number_of_get?_eq_none hNone] at hFlies
  cases hFlies

end ReplicaUpkeep
