import ReplicaUpkeep.Proofs.Manager.History
import ReplicaUpkeep.Proofs.Queue.Membership

/-!
# The queue follows health

Whatever happened to a manager, nobody waits in its queue for copies and for deletes at once.  And an
evaluation leaves the container in the queue exactly as its latest snapshot says, forgets one that is on
its way out, and touches no other container.
-/

namespace ReplicaUpkeep

/-- A queue after the evaluation of a snapshot: the container waits as the snapshot says, nothing of it is
in flight if it is on its way out, and everybody else waits on in the same order with the same repairs
in flight. -/
structure RepairQueue.Follows (before after : RepairQueue) (s : Snapshot) : Prop where
  shortage : after.contains s.id .shortage = true ↔
    (s.container.state = .quasiClosed ∨ s.container.state = .closed) ∧ s.count .good < s.factor
  surplus : after.contains s.id .surplus = true ↔
    (s.container.state = .quasiClosed ∨ s.container.state = .closed) ∧ s.factor < s.count .good
  forgotten : s.container.state = .deleting ∨ s.container.state = .deleted →
    ∀ kind, after.inflight.flights.get? ⟨s.id, kind⟩ = none
  waiting : ∀ id ≠ s.id, ∀ i, after.contains id i = before.contains id i
  order : after.line.toList.filter (fun w => w.container ≠ s.id) =
    before.line.toList.filter (fun w => w.container ≠ s.id)
  flights : ∀ key : RepairKey, key.major ≠ s.id →
    after.inflight.flights.get? key = before.inflight.flights.get? key

namespace RepairQueue

/-- An evaluation brings an open queue in line with its snapshot. -/
theorem follows_settled {q : RepairQueue} (h : q.line.Sound) (s : Snapshot) (lookup : NodeLookup) :
    q.Follows (q.settled (s.evaluate lookup)) s := by
  have hStage : (s.evaluate lookup).isRepairable = true ↔
      s.container.state = .quasiClosed ∨ s.container.state = .closed := by
    show s.container.state.isRepairable = true ↔ _
    cases s.container.state <;> simp [ContainerState.isRepairable]
  have hOwn : ∀ i, (q.settled (s.evaluate lookup)).contains s.id i =
      decide (0 < (s.evaluate lookup).needed i) := fun i => by
    have hContains := q.line.contains_follow (s.evaluate lookup) s.id i
    rwa [if_pos (show s.id = (s.evaluate lookup).id from rfl)] at hContains
  have hNeeds : ∀ n : Nat, 0 < (if (s.evaluate lookup).isRepairable = true then n else 0) ↔
      (s.container.state = .quasiClosed ∨ s.container.state = .closed) ∧ 0 < n := by
    intro n
    rw [← hStage]
    split <;> rename_i hRepaired <;> simp [hRepaired]
  refine ⟨?_, ?_, fun hDeleted kind => ?_, fun id hOther i => ?_,
    WaitingLine.toList_follow_of_ne h (s.evaluate lookup), fun key hOther => ?_⟩
  · rw [hOwn, decide_eq_true_eq]
    exact (hNeeds (s.factor - s.count .good)).trans (and_congr_right fun _ => Nat.sub_pos_iff_lt)
  · rw [hOwn, decide_eq_true_eq]
    exact (hNeeds (s.count .good - s.factor)).trans (and_congr_right fun _ => Nat.sub_pos_iff_lt)
  · have hGone : (s.evaluate lookup).container.state.isBeingDeleted = true := by
      show s.container.state.isBeingDeleted = true
      rcases hDeleted with hState | hState <;> rw [hState] <;> rfl
    show (q.inflight.follow (s.evaluate lookup)).flights.get? _ = none
    rw [Inflight.follow, if_pos hGone, Inflight.get?_forget]
    exact if_pos rfl
  · have hContains := q.line.contains_follow (s.evaluate lookup) id i
    rwa [if_neg (show id ≠ (s.evaluate lookup).id from hOther)] at hContains
  · exact q.inflight.get?_follow_of_ne (e := s.evaluate lookup) hOther

end RepairQueue

namespace Manager

section Sound

variable {m : Manager} (h : m.Sound)
include h

/-! ## One imbalance each -/

theorem exclusive_evaluate (hExclusive : m.queue.line.Exclusive) (now : Moment)
    (id : ContainerId) : (m.evaluate now id).2.queue.line.Exclusive := by
  rcases m.evaluate_cases now id with ⟨e, queue, hEntry, hSettle, hDone⟩ | ⟨fault, success, hDone⟩
  · rw [hDone]
    exact RepairQueue.exclusive_settle h.queue hExclusive (proper_evaluations now h id e hEntry).1
      hSettle
  · rw [hDone]
    exact hExclusive

theorem exclusive_cycle (hExclusive : m.queue.line.Exclusive) (now : Moment) :
    (m.cycle now).2.queue.line.Exclusive := by
  rw [line_cycle]
  exact .batch (sound_settledQueue now h).1.line (RepairQueue.exclusive_settleAll h.queue hExclusive
    fun _ he => (proper_evaluations now h).regular he) _

theorem exclusive_visit (hExclusive : m.queue.line.Exclusive) (now : Moment)
    (action : Evaluation → Manager → Manager) (hStore : ∀ e m, (action e m).store = m.store)
    (hQueue : ∀ e m, (action e m).queue = m.queue) (ids : List ContainerId) :
    (visit now action ids m).2.queue.line.Exclusive := by
  -- Evaluations need the manager sound, so both are carried along.
  have hKept : (visit now action ids m).2.Sound ∧
      (visit now action ids m).2.queue.line.Exclusive := by
    refine visit_keeps (P := fun m => m.Sound ∧ m.queue.line.Exclusive) (fun m id hm => ?_)
      (fun e m hm => ?_) ids ⟨h, hExclusive⟩
    · exact ⟨sound_evaluate hm.1 now id, exclusive_evaluate hm.1 hm.2 now id⟩
    · refine ⟨⟨?_, ?_⟩, ?_⟩
      · rw [hStore]
        exact hm.1.keyed
      · rw [hQueue]
        exact hm.1.queue
      · rw [hQueue]
        exact hm.2
  exact hKept.2

theorem exclusive_after (hExclusive : m.queue.line.Exclusive) (event : Event) :
    (m.after event).queue.line.Exclusive := by
  cases event with
  | round now => exact exclusive_cycle h hExclusive now
  | evaluate now id => exact exclusive_evaluate h hExclusive now id
  | nodeChange now node =>
    show (m.nodeChange now node).2.queue.line.Exclusive
    unfold nodeChange
    split
    · exact hExclusive
    · exact exclusive_visit h hExclusive now (fun e m => m.dispatch (e.ofKind .close))
        (fun _ _ => rfl) (fun _ _ => rfl) _
  | evict now node =>
    have hEvicted : Sound { m with
        store := (m.store.evict node).2, registry := m.registry.removeNode node } :=
      ⟨h.keyed.evict node, h.queue⟩
    exact exclusive_visit hEvicted hExclusive now (fun _ m => m) (fun _ _ => rfl) (fun _ _ => rfl) _
  | ingest r =>
    show ((m.ingest r).toOption.getD m).queue.line.Exclusive
    unfold ingest
    cases m.store.report r <;> exact hExclusive
  | stop => exact RepairQueue.Sound.exclusive_of_closed (RepairQueue.sound_close _) rfl
  | _ => exact hExclusive

theorem exclusive_afterAll (hExclusive : m.queue.line.Exclusive) (events : List Event) :
    (m.afterAll events).queue.line.Exclusive := by
  induction events generalizing m with
  | nil => exact hExclusive
  | cons event rest ih => exact ih (sound_after h event) (exclusive_after h hExclusive event)

/-! ## One evaluation -/

/-- With an open queue a known container is evaluated, and the queue is brought in line. -/
theorem evaluate_of_known (hOpen : m.queue.closed = false) (now : Moment) {id : ContainerId}
    {s : Snapshot} (hKnown : m.store.snapshot id = .ok s) :
    s.id = id ∧ m.evaluate now id = (.ok (s.evaluate (m.lookup now)),
      { m.countEvaluation true with queue := m.queue.settled (s.evaluate (m.lookup now)) }) := by
  obtain ⟨entry, hEntry, hSnapshot⟩ := (Store.entry_map_eq_ok_iff _ _ _ _).1 hKnown
  have hEvaluated : m.store.evaluate (m.lookup now) id = .ok (s.evaluate (m.lookup now)) := by
    rw [Store.evaluate, hKnown]
    rfl
  have hSettled : (m.countEvaluation true).queue.settle (s.evaluate (m.lookup now)) =
      .ok (m.queue.settled (s.evaluate (m.lookup now))) :=
    RepairQueue.settle_of_open hOpen (s.regular_evaluate _)
  constructor
  · rw [← hSnapshot]
    exact h.keyed id entry hEntry
  · rw [evaluate, hEvaluated]
    simp only [hSettled]

omit h in
theorem evaluate_of_unknown (now : Moment) {id : ContainerId} {fault : Error}
    (hUnknown : m.store.snapshot id = .error fault) :
    m.evaluate now id = (.error fault, m.countEvaluation false) := by
  rw [evaluate, Store.evaluate, hUnknown]
  rfl

end Sound

end Manager

/-- Whatever happened to a manager whose queue is open: nobody waits in it for copies and for deletes at
once; an evaluation of a known container succeeds, and the queue then follows the container's snapshot; an
evaluation of an unknown one fails and leaves the queue alone. -/
theorem membership_follows_health (config : Config) (events : List Manager.Event) (now : Moment)
    (id : ContainerId)
    (hOpen : ((Manager.of config .empty .empty).afterAll events).queue.closed = false) :
    let m := (Manager.of config .empty .empty).afterAll events
    (∀ other, ¬ (m.queue.contains other .shortage = true ∧
      m.queue.contains other .surplus = true)) ∧
    (∀ s, m.store.snapshot id = .ok s →
      s.id = id ∧ ∃ e m', m.evaluate now id = (.ok e, m') ∧ m.queue.Follows m'.queue s) ∧
    ∀ fault, m.store.snapshot id = .error fault → fault = .containerNotFound id ∧
      (m.evaluate now id).1 = .error fault ∧ (m.evaluate now id).2.queue = m.queue := by
  intro m
  have hFresh : (Manager.of config .empty .empty).Sound :=
    Manager.sound_of config Store.keyed_empty .empty
  have hSound : m.Sound := Manager.sound_afterAll hFresh events
  refine ⟨?_, fun s hKnown => ?_, fun fault hUnknown => ⟨?_, ?_, ?_⟩⟩
  · exact Manager.exclusive_afterAll hFresh
      (WaitingLine.exclusive_of_nobody WaitingLine.sound_empty rfl) events
  · obtain ⟨hOwn, hDone⟩ := Manager.evaluate_of_known hSound hOpen now hKnown
    exact ⟨hOwn, _, _, hDone, RepairQueue.follows_settled hSound.queue.line s (m.lookup now)⟩
  · revert hUnknown
    unfold Store.snapshot Store.entry
    cases m.store.entries.get? id <;> simp [Except.map, eq_comm]
  · rw [Manager.evaluate_of_unknown now hUnknown]
  · rw [Manager.evaluate_of_unknown now hUnknown]
    rfl

/-- Two containers have a replica too many each.  The first was put into the queue by a report that was
followed up; the evaluation of the second puts that one in as well. -/
theorem membership_follows_health_of_two :
    let now : Moment := ⟨⟨⟨2024, 1, 1, 0, 0, 0, 0⟩, by decide⟩, 0⟩
    let report : ContainerId → NodeId → Report := fun id node =>
      ⟨id, node, .closed, some 7, some "a", false⟩
    let events : List Manager.Event :=
      [.update (.add ⟨⟨1⟩, .closed, 1, 0⟩), .update (.add ⟨⟨2⟩, .closed, 1, 0⟩),
        .ingest (report ⟨2⟩ "a"), .ingest (report ⟨2⟩ "b"), .evaluate now ⟨2⟩,
        .ingest (report ⟨1⟩ "a"), .ingest (report ⟨1⟩ "b")]
    let m := (Manager.of .default .empty .empty).afterAll events
    m.queue.closed = false ∧
      ¬ (m.queue.contains ⟨2⟩ .shortage = true ∧ m.queue.contains ⟨2⟩ .surplus = true) ∧
      ∃ e m', m.evaluate now ⟨1⟩ = (.ok e, m') ∧ m'.queue.contains ⟨1⟩ .surplus = true ∧
        m'.queue.contains ⟨2⟩ .surplus = true := by
  intro now report events
  -- The manager is computed for the three facts that are read off it, and is a variable otherwise.
  obtain ⟨m, hm⟩ : ∃ m, (Manager.of .default .empty .empty).afterAll events = m := ⟨_, rfl⟩
  have hOpen : m.queue.closed = false := by
    rw [← hm]
    decide +kernel
  have hWaits : m.queue.contains ⟨2⟩ .surplus = true := by
    rw [← hm]
    decide +kernel
  have hRead : ((m.store.snapshot ⟨1⟩).map fun s =>
      (s.container.state, s.factor, s.count .good)).toOption = some (.closed, 1, 2) := by
    rw [← hm]
    decide +kernel
  have hAll := membership_follows_health .default events now ⟨1⟩ (hm ▸ hOpen)
  rw [hm] at hAll ⊢
  obtain ⟨hOne, hKnown, -⟩ := hAll
  refine ⟨hOpen, hOne ⟨2⟩, ?_⟩
  cases hSnapshot : m.store.snapshot ⟨1⟩ with
  | error fault =>
    rw [hSnapshot] at hRead
    cases hRead
  | ok s =>
    simp only [hSnapshot, Except.map, Except.toOption, Option.some.injEq, Prod.mk.injEq] at hRead
    obtain ⟨hState, hFactor, hGood⟩ := hRead
    obtain ⟨hOwn, e, m', hDone, hFollows⟩ := hKnown s hSnapshot
    refine ⟨e, m', hDone, ?_, ?_⟩
    · rw [← hOwn]
      exact hFollows.surplus.2 ⟨.inr hState, by omega⟩
    · rw [hFollows.waiting ⟨2⟩ (by rw [hOwn]; decide)]
      exact hWaits

end ReplicaUpkeep
