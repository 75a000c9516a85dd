import ReplicaUpkeep.Proofs.Manager.Round

/-!
# Whatever happens to a manager

A manager lives through events in any order: rounds, evaluations, reports, nodes that change or leave,
changes of the store and the registry behind its back, directives being taken out.  Every one of them
keeps it sound.  So no history leads to more repairs in flight than the evaluation at hand finds needed.

Nothing is assumed of the moments of the events.  Flights may lapse at any time, and what lapsed is
counted again only after it was sent again.
-/

namespace ReplicaUpkeep

namespace Manager

/-- What can happen to a manager. -/
inductive Event where
  | round (now : Moment)
  | evaluate (now : Moment) (id : ContainerId)
  | nodeChange (now : Moment) (node : NodeId)
  | evict (now : Moment) (node : NodeId)
  | ingest (r : Report)
  /-- A change of the store that does not come through the manager. -/
  | update (op : Store.Operation)
  /-- Another registry. -/
  | register (registry : Registry)
  | drain (n : Nat)
  | hangUp
  | stop

/-- The manager after an event; a refused one leaves it alone. -/
def after (m : Manager) : Event → Manager
  | .round now => (m.cycle now).2
  | .evaluate now id => (m.evaluate now id).2
  | .nodeChange now node => (m.nodeChange now node).2
  | .evict now node => (m.evict now node).2
  | .ingest r => (m.ingest r).toOption.getD m
  | .update op => { m with store := m.store.step op }
  | .register registry => { m with registry := registry }
  | .drain n => (m.drain n).2
  | .hangUp => m.hangUp
  | .stop => m.stop

/-- The manager after events in turn. -/
def afterAll (m : Manager) (events : List Event) : Manager :=
  events.foldl after m

/-! ## Every event keeps a manager sound -/

/-- An evaluation succeeds with the queue in line, or fails and leaves the queue alone. -/
theorem evaluate_cases (m : Manager) (now : Moment) (id : ContainerId) :
    (∃ e queue, (m.evaluations now).get? id = some e ∧ m.queue.settle e = .ok queue ∧
      m.evaluate now id = (.ok e, { m.countEvaluation true with queue })) ∨
    ∃ fault success, m.evaluate now id = (.error fault, m.countEvaluation success) := by
  unfold evaluate
  cases hEvaluation : m.store.evaluate (m.lookup now) id with
  | error fault => exact Or.inr ⟨fault, false, rfl⟩
  | ok e =>
    have hEntry : (m.evaluations now).get? id = some e := by
      unfold Store.evaluate Store.snapshot Store.entry at hEvaluation
      rw [get?_evaluations]
      cases hKnown : m.store.entries.get? id with
      | none => simp [hKnown, Except.map] at hEvaluation
      | some entry => simpa [hKnown, Except.map] using hEvaluation
    have hQueue : (m.countEvaluation true).queue = m.queue := rfl
    simp only [hQueue]
    cases hSettle : m.queue.settle e with
    | error fault => exact Or.inr ⟨fault, true, rfl⟩
    | ok queue => exact Or.inl ⟨e, queue, hEntry, hSettle, rfl⟩

/-- What every evaluation keeps, and whatever is done after one, a visit keeps. -/
theorem visit_keeps {P : Manager → Prop} {now : Moment} {action : Evaluation → Manager → Manager}
    (hEvaluate : ∀ m id, P m → P (m.evaluate now id).2)
    (hAction : ∀ e m, P m → P (action e m)) (ids : List ContainerId) {m : Manager} (h : P m) :
    P (visit now action ids m).2 := by
  induction ids generalizing m with
  | nil => exact h
  | cons id rest ih =>
    have hFirst := hEvaluate m id h
    unfold visit
    split
    · rename_i e next hDone
      rw [hDone] at hFirst
      exact ih (hAction e next hFirst)
    · rename_i fault next hDone
      rw [hDone] at hFirst
      split
      · exact ih hFirst
      · exact hFirst

section Sound

variable {m : Manager} (h : m.Sound)
include h

theorem sound_evaluate (now : Moment) (id : ContainerId) : (m.evaluate now id).2.Sound := by
  rcases m.evaluate_cases now id with ⟨e, queue, hEntry, hSettle, hDone⟩ | ⟨fault, success, hDone⟩
  · have hRegular := (proper_evaluations now h id e hEntry).1
    rw [hDone]
    exact ⟨h.keyed, (RepairQueue.sound_settle h.queue hRegular hSettle).1⟩
  · rw [hDone]
    exact ⟨h.keyed, h.queue⟩

theorem sound_visit (now : Moment) (action : Evaluation → Manager → Manager)
    (hAction : ∀ e m, m.Sound → (action e m).Sound) (ids : List ContainerId) :
    (visit now action ids m).2.Sound :=
  visit_keeps (fun _ id hm => sound_evaluate hm now id) hAction ids h

theorem sound_ingest {r : Report} {m' : Manager} (hIngest : m.ingest r = .ok m') : m'.Sound := by
  unfold ingest at hIngest
  cases hReport : m.store.report r with
  | error fault =>
    rw [hReport] at hIngest
    cases hIngest
  | ok store =>
    rw [hReport] at hIngest
    cases hIngest
    exact ⟨h.keyed.report hReport, h.queue⟩

theorem sound_after (event : Event) : (m.after event).Sound := by
  cases event with
  | round now => exact (sound_cycle now h).1
  | evaluate now id => exact sound_evaluate h now id
  | nodeChange now node =>
    show (m.nodeChange now node).2.Sound
    unfold nodeChange
    split
    · exact h
    · exact sound_visit h now (fun e m => m.dispatch (e.ofKind .close))
        (fun _ _ hm => ⟨hm.keyed, hm.queue⟩) _
  | evict now node =>
    have hEvicted : Sound { m with
        store := (m.store.evict node).2, registry := m.registry.removeNode node } :=
      ⟨h.keyed.evict node, h.queue⟩
    exact sound_visit hEvicted now (fun _ m => m) (fun _ _ hm => hm) _
  | ingest r =>
    show ((m.ingest r).toOption.getD m).Sound
    cases hIngest : m.ingest r with
    | error fault => exact h
    | ok m' => exact sound_ingest h hIngest
  | update op => exact ⟨h.keyed.step op, h.queue⟩
  | register registry => exact ⟨h.keyed, h.queue⟩
  | drain n => exact ⟨h.keyed, h.queue⟩
  | hangUp => exact ⟨h.keyed, h.queue⟩
  | stop => exact ⟨h.keyed, RepairQueue.sound_close _⟩

theorem sound_afterAll (events : List Event) : (m.afterAll events).Sound := by
  induction events generalizing m with
  | nil => exact h
  | cons event rest ih => exact ih (sound_after h event)

/-! ## No more repairs than needed -/

/-- After an evaluation no more repairs are in flight than it finds needed. -/
theorem inflightAt_evaluate_le {now : Moment} {id : ContainerId} {e : Evaluation} {m' : Manager}
    (hEvaluate : m.evaluate now id = (.ok e, m')) (i : Imbalance) (t : Nat) :
    m'.queue.inflightAt id i.repair t ≤ e.needed i := by
  rcases m.evaluate_cases now id with ⟨d, queue, hEntry, hSettle, hDone⟩ | ⟨fault, success, hDone⟩
  · rw [hDone, Prod.mk.injEq, Except.ok.injEq] at hEvaluate
    obtain ⟨rfl, rfl⟩ := hEvaluate
    obtain ⟨hRegular, rfl⟩ := proper_evaluations now h id d hEntry
    have hAll : ∀ c ∈ [d], c.Regular := by simpa using hRegular
    have hCapped := RepairQueue.inflightAt_settleAll hAll (List.nodup_singleton _) h.queue
      List.mem_cons_self i t
    rw [RepairQueue.settleAll, hSettle] at hCapped
    exact hCapped ▸ Nat.min_le_right _ _
  · rw [hDone] at hEvaluate
    cases hEvaluate

/-- In a round, what is sent for a container stays within its need together with what is still in
flight for it, and so does what is in flight afterwards. -/
theorem inflightAt_cycle_le {now : Moment} {id : ContainerId} {e : Evaluation}
    (hEvaluation : (m.evaluations now).get? id = some e) (i : Imbalance) :
    ((m.sentIn now).filter fun d => d.key = ⟨id, i.repair⟩).length +
        (m.settledQueue now).inflightAt id i.repair now.steady ≤ e.needed i ∧
      ∀ t, (m.cycle now).2.queue.inflightAt id i.repair t ≤ e.needed i := by
  obtain ⟨hContinues, hJoined, hKept⟩ := repaired_cycle now h hEvaluation i
  have hListed := (proper_evaluations now h id e hEvaluation).1.within i
  have hLength := hContinues.length_le
  rw [List.length_drop] at hLength
  have hSettled : ∀ t, (m.settledQueue now).inflightAt id i.repair t ≤ e.needed i := fun t => by
    rw [inflightAt_settledQueue now h hEvaluation i t]
    exact Nat.min_le_right _ _
  have hFlying : ((m.settledQueue now).current id i.repair now.steady).1.toNat ≤ e.needed i :=
    hSettled now.steady
  have hSum : ((m.sentIn now).filter fun d => d.key = ⟨id, i.repair⟩).length +
      ((m.settledQueue now).current id i.repair now.steady).1.toNat ≤ e.needed i := by
    omega
  refine ⟨hSum, fun t => ?_⟩
  rw [RepairQueue.inflightAt_eq_number]
  by_cases hSent : UInt64.ofNat
      ((m.sentIn now).filter fun d => d.key = ⟨id, i.repair⟩).length = 0
  · rcases hKept hSent with hSame | hLapsed
    · rw [Inflight.number_congr hSame]
      exact hSettled t
    · exact Nat.le_trans (Inflight.number_le_of_get?_eq_filter hLapsed t) (hSettled t)
  · -- The sum of two words is at most the sum of what they stand for.
    have hCount := Inflight.number_le_count (hJoined hSent) t
    rw [UInt64.toNat_add, UInt64.toNat_ofNat'] at hCount
    have hWrap := Nat.mod_le (((m.settledQueue now).current id i.repair now.steady).1.toNat +
      ((m.sentIn now).filter fun d => d.key = ⟨id, i.repair⟩).length % 2 ^ 64) (2 ^ 64)
    have hWord := Nat.mod_le
      ((m.sentIn now).filter fun d => d.key = ⟨id, i.repair⟩).length (2 ^ 64)
    omega

end Sound

end Manager

/-- Repairs in flight never exceed the need.  Whatever happened to a manager before, an evaluation of a
container leaves no more of its repairs in flight than the evaluation finds needed, and so does a
round for every container.  What a round sends for a container and what is still in flight for it, which
is no more than the need, stay together within the need. -/
theorem inflight_within_need (config : Config) (events : List Manager.Event) (now : Moment)
    (id : ContainerId) (e : Evaluation) (i : Imbalance) :
    let m := (Manager.of config .empty .empty).afterAll events
    (∀ m', m.evaluate now id = (.ok e, m') → ∀ t, m'.queue.inflightAt id i.repair t ≤ e.needed i) ∧
      ((m.evaluations now).get? id = some e →
        (∀ t, (m.cycle now).2.queue.inflightAt id i.repair t ≤ e.needed i) ∧
          ∃ sent, (m.cycle now).2.outbox.waiting = m.outbox.waiting ++ sent ∧
            (sent.filter fun d => d.key = ⟨id, i.repair⟩).length +
              min (m.queue.inflightAt id i.repair now.steady) (e.needed i) ≤ e.needed i) := by
  intro m
  have hSound : m.Sound :=
    Manager.sound_afterAll (Manager.sound_of config Store.keyed_empty .empty) events
  refine ⟨fun m' hEvaluate t => Manager.inflightAt_evaluate_le hSound hEvaluate i t,
    fun hEvaluation => ?_⟩
  obtain ⟨hSum, hAfter⟩ := Manager.inflightAt_cycle_le hSound hEvaluation i
  rw [Manager.inflightAt_settledQueue now hSound hEvaluation i] at hSum
  exact ⟨hAfter, m.sentIn now, Manager.waiting_cycle now hSound, hSum⟩

/-- Two copies are in flight when a second replica turns up; then only one of them counts on, in an
evaluation as in a round, and the round sends no other. -/
theorem inflight_within_need_of_two :
    let day : Timestamp := ⟨⟨2024, 1, 1, 0, 0, 0, 0⟩, by decide⟩
    let now : Moment := ⟨day, 1⟩
    let status : NodeStatus := ⟨.inService, .healthy, none⟩
    let events : List Manager.Event :=
      [.register ((Registry.empty.addNode ⟨"a", "", status⟩).toOption.getD .empty),
        .update (.add ⟨⟨1⟩, .closed, 3, 0⟩),
        .update (.report ⟨⟨1⟩, "a", .closed, some 7, some "a", false⟩), .round ⟨day, 0⟩,
        .ingest ⟨⟨1⟩, "b", .closed, some 7, some "a", false⟩]
    let m := (Manager.of .default .empty .empty).afterAll events
    m.queue.inflightAt ⟨1⟩ .replicate 1 = 2 ∧
      ∃ e, (m.evaluations now).get? ⟨1⟩ = some e ∧ e.needed .shortage = 1 ∧
        (m.cycle now).2.queue.inflightAt ⟨1⟩ .replicate 1 ≤ 1 ∧
        ∃ m', m.evaluate now ⟨1⟩ = (.ok e, m') ∧ m'.queue.inflightAt ⟨1⟩ .replicate 1 ≤ 1 := by
  intro day now status events m
  have hFlying : m.queue.inflightAt ⟨1⟩ .replicate 1 = 2 := by decide +kernel
  have hNeeded : ((m.evaluations now).get? ⟨1⟩).map (Evaluation.needed · .shortage) = some 1 := by
    decide +kernel
  have hSame : (m.evaluate now ⟨1⟩).1.toOption = (m.evaluations now).get? ⟨1⟩ := by decide +kernel
  obtain ⟨e, hEvaluation, hOne⟩ := Option.map_eq_some_iff.1 hNeeded
  obtain ⟨hEvaluate, hRound⟩ := inflight_within_need .default events now ⟨1⟩ e .shortage
  rw [hOne] at hEvaluate hRound
  refine ⟨hFlying, e, hEvaluation, hOne, (hRound hEvaluation).1 1, ?_⟩
  cases hDone : m.evaluate now ⟨1⟩ with
  | mk result m' =>
    rw [hDone, hEvaluation] at hSame
    cases result with
    | error fault => cases hSame
    | ok d =>
      cases hSame
      exact ⟨m', rfl, hEvaluate m' hDone 1⟩

end ReplicaUpkeep
