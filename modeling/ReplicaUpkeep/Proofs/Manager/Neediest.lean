import Mathlib.Data.List.Infix
import ReplicaUpkeep.Proofs.Manager.History
import ReplicaUpkeep.Proofs.Plan.Conservation
import ReplicaUpkeep.Proofs.Queue.Entry

/-!
# Who is repaired first

The fewer good replicas a container has, the sooner it is repaired, but the count that decides is the one
with which the container was put into the queue.  Later evaluations leave it where it is, so a round takes
containers in the order of those counts, whatever they have become meanwhile.  The counts are followed
along a history beside the manager, which does not keep them.

That a count is fixed on entry is what makes putting a container into the queue again harmless.  Its price
is that a container which loses replicas while it waits is not preferred.
-/

namespace ReplicaUpkeep

/-! ## What the store tells of a container -/

namespace Store

/-- How many good replicas a container has; an unknown one has none. -/
def goodOf (s : Store) (id : ContainerId) : Nat :=
  (s.entries.get? id).elim 0 fun entry => (snapshotOf entry).count .good

/-- How a container has to wait, which no registry has a say in. -/
def waiterOf (s : Store) (id : ContainerId) : Option Waiter :=
  (s.entries.get? id).bind fun entry => ((snapshotOf entry).evaluate fun _ => none).waiter?

/-- Who has to wait for copies is ranked by its good replicas. -/
theorem priority_of_waiterOf {s : Store} {id : ContainerId} {w : Waiter}
    (hWaiter : s.waiterOf id = some w) (hShort : w.imbalance = .shortage) :
    w.priority = UInt32.ofNat (s.goodOf id) := by
  obtain ⟨entry, hEntry, hOwn⟩ := Option.bind_eq_some_iff.1 hWaiter
  rw [goodOf, hEntry]
  rw [Evaluation.waiter?] at hOwn
  split at hOwn
  · split at hOwn
    · cases hOwn
      rfl
    · split at hOwn
      · cases hOwn
        cases hShort
      · cases hOwn
  · cases hOwn

/-- No container has more good replicas than a rank can tell apart. -/
def FewGood (s : Store) : Prop :=
  ∀ id, s.goodOf id < UInt32.size

theorem fewGood_iff (s : Store) :
    s.FewGood ↔ ∀ entry ∈ s.entries.values, (snapshotOf entry).count .good < UInt32.size := by
  constructor
  · intro h entry he
    obtain ⟨id, hEntry⟩ := (Table.mem_values_iff _ entry).1 he
    have hOwn := h id
    rwa [goodOf, hEntry] at hOwn
  · intro h id
    rw [goodOf]
    cases hEntry : s.entries.get? id with
    | none => decide
    | some entry => exact h entry ((Table.mem_values_iff _ entry).2 ⟨id, hEntry⟩)

instance (s : Store) : Decidable s.FewGood :=
  decidable_of_iff _ s.fewGood_iff.symm

end Store

namespace Manager

/-! ## The counts on entry -/

/-- The counts after an event: who waited for copies before keeps the count with which it was put into
the queue; everybody else has the present count, with which it may just have been put there. -/
def countsAfter (m : Manager) (counts : ContainerId → Nat) (event : Event) : ContainerId → Nat :=
  fun id => if m.queue.contains id .shortage then counts id else (m.after event).store.goodOf id

/-- The count of good replicas with which each container was last put into the queue for copies, at the
end of a history. -/
def entryCounts (m : Manager) (counts : ContainerId → Nat) : List Event → ContainerId → Nat
  | [] => counts
  | event :: rest => (m.after event).entryCounts (m.countsAfter counts event) rest

/-- A round takes those who wait for copies out of the queue by ascending counts, and leaves nobody there
whose count is lower than that of one it takes. -/
structure TakesByCount (m : Manager) (now : Moment) (counts : ContainerId → Nat) : Prop where
  ascending : ((m.batch now).filter fun w => w.imbalance = .shortage).Pairwise
    fun v w => counts v.container ≤ counts w.container
  behind : ∀ v ∈ m.batch now, v.imbalance = .shortage →
    ∀ id, (m.cycle now).2.queue.contains id .shortage = true → counts v.container ≤ counts id

theorem entryCounts_concat (m : Manager) (counts : ContainerId → Nat) (events : List Event)
    (event : Event) :
    m.entryCounts counts (events ++ [event]) =
      (m.afterAll events).countsAfter (m.entryCounts counts events) event := by
  induction events generalizing m counts with
  | nil => rfl
  | cons first rest ih => exact ih (m.after first) (m.countsAfter counts first)

/-- Counts on entry were present counts once. -/
theorem entryCounts_lt {m : Manager} {counts : ContainerId → Nat}
    (hCounts : ∀ id, counts id < UInt32.size) {events : List Event}
    (hFew : ∀ past ∈ events.inits, (m.afterAll past).store.FewGood) (id : ContainerId) :
    m.entryCounts counts events id < UInt32.size := by
  induction events generalizing m counts with
  | nil => exact hCounts id
  | cons event rest ih =>
    have hPrefix : ∀ past, past <+: event :: rest → (m.afterAll past).store.FewGood :=
      fun past hPast => hFew past ((List.mem_inits _ _).2 hPast)
    refine ih (fun other => ?_) fun past hPast => hPrefix (event :: past) ?_
    · rw [countsAfter]
      split
      · exact hCounts other
      · exact hPrefix [event] ⟨rest, rfl⟩ other
    · exact List.cons_prefix_cons.2 ⟨rfl, (List.mem_inits _ _).1 hPast⟩

/-! ## Every event keeps the ranks -/

section Sound

variable {m : Manager} (h : m.Sound)
include h

/-- All evaluations of a container tell the same while the store stays. -/
theorem waiter?_of_evaluation {now : Moment} {id : ContainerId} {e : Evaluation}
    (hEvaluation : (m.evaluations now).get? id = some e) : e.waiter? = m.store.waiterOf e.id := by
  rw [(proper_evaluations now h id e hEvaluation).2, Store.waiterOf]
  rw [get?_evaluations, Option.map_eq_some_iff] at hEvaluation
  obtain ⟨entry, hEntry, rfl⟩ := hEvaluation
  rw [hEntry]
  rfl

theorem ensues_evaluate {before : WaitingLine}
    (hBefore : before.Ensues m.queue.line m.store.waiterOf) (now : Moment) (id : ContainerId) :
    before.Ensues (m.evaluate now id).2.queue.line m.store.waiterOf ∧
      (m.evaluate now id).2.store = m.store := by
  rcases m.evaluate_cases now id with ⟨e, queue, hEntry, hSettle, hDone⟩ | ⟨fault, success, hDone⟩
  · rw [hDone]
    refine ⟨?_, rfl⟩
    show before.Ensues queue.line _
    cases hClosed : m.queue.closed with
    | true =>
      obtain ⟨hSound, hStays⟩ := RepairQueue.settle_of_closed h.queue hClosed hSettle
      exact hBefore.of_toList_eq h.queue.line hSound.line
        ((hSound.nobody hStays).trans (h.queue.nobody hClosed).symm)
    | false =>
      have hRegular := (proper_evaluations now h id e hEntry).1
      rw [RepairQueue.settle_of_open hClosed hRegular, Except.ok.injEq] at hSettle
      rw [← hSettle]
      exact hBefore.follow h.queue.line (waiter?_of_evaluation h hEntry)
  · rw [hDone]
    exact ⟨hBefore, rfl⟩

theorem ensues_visit (now : Moment) (action : Evaluation → Manager → Manager)
    (hStore : ∀ e m, (action e m).store = m.store) (hQueue : ∀ e m, (action e m).queue = m.queue)
    (ids : List ContainerId) :
    m.queue.line.Ensues (visit now action ids m).2.queue.line m.store.waiterOf ∧
      (visit now action ids m).2.store = m.store := by
  have hKept : (visit now action ids m).2.Sound ∧ (visit now action ids m).2.store = m.store ∧
      m.queue.line.Ensues (visit now action ids m).2.queue.line m.store.waiterOf := by
    -- The store stays, so all evaluations of the visit tell the same.
    refine visit_keeps (P := fun after => after.Sound ∧ after.store = m.store ∧
      m.queue.line.Ensues after.queue.line m.store.waiterOf) (fun after id hm => ?_)
      (fun e after hm => ?_) ids ⟨h, rfl, .refl h.queue.line⟩
    · obtain ⟨hSound, hSame, hEnsues⟩ := hm
      rw [← hSame] at hEnsues ⊢
      obtain ⟨hNext, hStays⟩ := ensues_evaluate hSound hEnsues now id
      exact ⟨sound_evaluate hSound now id, hStays, hNext⟩
    · obtain ⟨hSound, hSame, hEnsues⟩ := hm
      refine ⟨⟨?_, ?_⟩, ?_, ?_⟩
      · rw [hStore]
        exact hSound.keyed
      · rw [hQueue]
        exact hSound.queue
      · rw [hStore, hSame]
      · rw [hQueue]
        exact hEnsues
  exact ⟨hKept.2.2, hKept.2.1⟩

/-- A round settles its line by evaluations of one store. -/
theorem ensues_settledQueue (now : Moment) :
    m.queue.line.Ensues (m.settledQueue now).line m.store.waiterOf := by
  cases hClosed : m.queue.closed with
  | true =>
    obtain ⟨hSound, hStays⟩ := sound_settledQueue now h
    exact (WaitingLine.Ensues.refl h.queue.line).of_toList_eq h.queue.line hSound.line
      ((hSound.nobody (hStays.trans hClosed)).trans (h.queue.nobody hClosed).symm)
  | false =>
    rw [line_settledQueue now h hClosed]
    refine (WaitingLine.Ensues.refl h.queue.line).foldl_follow h.queue.line fun e he => ?_
    obtain ⟨id, hEvaluation⟩ := (Table.mem_values_iff _ e).1 he
    exact waiter?_of_evaluation h hEvaluation

variable {counts : ContainerId → Nat} (hRanked : m.queue.line.RankedBy counts)
include hRanked

/-- The line of a round is ranked by the counts after it. -/
theorem ranked_settledQueue (now : Moment) :
    (m.settledQueue now).line.RankedBy (m.countsAfter counts (.round now)) :=
  (ensues_settledQueue h now).rankedBy hRanked fun _ _ hWaiter hShort =>
    Store.priority_of_waiterOf hWaiter hShort

/-- One event keeps the line ranked by the counts on entry. -/
theorem ranked_after (event : Event) :
    (m.after event).queue.line.RankedBy (m.countsAfter counts event) := by
  have hEnsues : m.queue.line.Ensues (m.after event).queue.line (m.after event).store.waiterOf →
      (m.after event).queue.line.RankedBy (m.countsAfter counts event) := fun hLine =>
    hLine.rankedBy hRanked fun _ _ hWaiter hShort => Store.priority_of_waiterOf hWaiter hShort
  -- Where nothing joins the line, it comes out of itself.
  have hSame : (m.after event).queue = m.queue →
      (m.after event).queue.line.RankedBy (m.countsAfter counts event) := fun hQueue => by
    refine hEnsues ?_
    rw [hQueue]
    exact .refl h.queue.line
  cases event with
  | round now =>
    refine (ranked_settledQueue h hRanked now).mono ?_
    show (m.cycle now).2.queue.line.toList ⊆ _
    rw [line_cycle, WaitingLine.toList_batch]
    exact List.drop_subset _ _
  | evaluate now id =>
    obtain ⟨hLine, hStore⟩ := ensues_evaluate h (.refl h.queue.line) now id
    refine hEnsues ?_
    rw [after, hStore]
    exact hLine
  | nodeChange now node =>
    cases hHosted : m.registry.containers node with
    | error fault =>
      refine hSame ?_
      rw [after, nodeChange, hHosted]
    | ok hosted =>
      obtain ⟨hLine, hStore⟩ := ensues_visit h now
        (fun e m => m.dispatch (e.ofKind .close)) (fun _ _ => rfl) (fun _ _ => rfl) hosted.keys
      refine hEnsues ?_
      rw [after, nodeChange, hHosted]
      simp only [hStore]
      exact hLine
  | evict now node =>
    have hEvicted : Sound { m with
        store := (m.store.evict node).2, registry := m.registry.removeNode node } :=
      ⟨h.keyed.evict node, h.queue⟩
    obtain ⟨hLine, hStore⟩ := ensues_visit hEvicted now (fun _ m => m) (fun _ _ => rfl)
      (fun _ _ => rfl) (m.store.evict node).1
    refine hEnsues ?_
    rw [after, evict]
    simp only [hStore]
    exact hLine
  | ingest r =>
    refine hSame ?_
    rw [after, ingest]
    cases m.store.report r <;> rfl
  | stop => exact WaitingLine.rankedBy_of_nobody rfl _
  | update op => exact hSame rfl
  | register registry => exact hSame rfl
  | drain n => exact hSame rfl
  | hangUp => exact hSame rfl

/-- A whole history does. -/
theorem ranked_afterAll (events : List Event) :
    (m.afterAll events).queue.line.RankedBy (m.entryCounts counts events) := by
  induction events generalizing m counts with
  | nil => exact hRanked
  | cons event rest ih => exact ih (sound_after h event) (ranked_after h hRanked event)

end Sound

/-! ## One round -/

section Round

variable {m : Manager} (h : m.Sound) (now : Moment)
include h

/-- A round takes from a line in the order of the counts that it is ranked by. -/
theorem takesByCount_of_rankedBy {counts : ContainerId → Nat}
    (hRanked : (m.settledQueue now).line.RankedBy counts)
    (hFew : ∀ id, counts id < UInt32.size) : m.TakesByCount now counts := by
  have hOrdered := (m.settledQueue now).line.toList_ordered
  have hLine := (sound_settledQueue now h).1.line
  constructor
  · rw [List.pairwise_filter]
    refine (hOrdered.sublist (List.take_sublist _ _)).imp_of_mem
      fun {v w} hv hw hBefore hShortV hShortW => ?_
    exact hRanked.count_le hFew (List.mem_of_mem_take hv) (List.mem_of_mem_take hw) hBefore
      (of_decide_eq_true hShortV) (of_decide_eq_true hShortW)
  · intro v hv hShort id hLeft
    -- Whoever is left stood behind the batch.
    have hRest : (m.cycle now).2.queue.line.Sound := (sound_cycle now h).1.queue.line
    obtain ⟨w, hw, hMember⟩ := (WaitingLine.contains_iff hRest id .shortage).1 hLeft
    rw [line_cycle, WaitingLine.toList_batch] at hw
    simp only [Waiter.member, OrderedPair.mk.injEq] at hMember
    rw [← List.take_append_drop m.config.maxRepairs.toNat (m.settledQueue now).line.toList,
      List.pairwise_append] at hOrdered
    rw [← hMember.1]
    exact hRanked.count_le hFew (List.mem_of_mem_take hv) (List.mem_of_mem_drop hw)
      (hOrdered.2.2 v hv w hw) hShort hMember.2

/-- Who lacks replicas is in the batch, or is left in the queue. -/
theorem mem_batch_or_contains_cycle (hOpen : m.queue.closed = false) {id : ContainerId}
    {e : Evaluation} (hEvaluation : (m.evaluations now).get? id = some e) {w : Waiter}
    (hWaiter : e.waiter? = some w) :
    (∃ v ∈ m.batch now, v.member = w.member) ∨
      (m.cycle now).2.queue.contains w.container w.imbalance = true := by
  have hTold : ∀ d ∈ (m.evaluations now).values, d.waiter? = m.store.waiterOf d.id := fun d hd => by
    obtain ⟨other, hOther⟩ := (Table.mem_values_iff _ d).1 hd
    exact waiter?_of_evaluation h hOther
  have he : e ∈ (m.evaluations now).values := (Table.mem_values_iff _ e).2 ⟨id, hEvaluation⟩
  have hWaits := WaitingLine.contains_foldl_follow h.queue.line hTold he hWaiter
  rw [← line_settledQueue now h hOpen, WaitingLine.contains_iff (sound_settledQueue now h).1.line]
    at hWaits
  obtain ⟨v, hv, hMember⟩ := hWaits
  rw [← List.take_append_drop m.config.maxRepairs.toNat (m.settledQueue now).line.toList,
    List.mem_append] at hv
  rcases hv with hTaken | hLeft
  · exact .inl ⟨v, hTaken, hMember⟩
  · refine .inr ((WaitingLine.contains_iff (sound_cycle now h).1.queue.line _ _).2 ⟨v, ?_, hMember⟩)
    rw [line_cycle, WaitingLine.toList_batch]
    exact hLeft

end Round

end Manager

/-- The neediest on entry are repaired first.  Whatever happened to a manager, as long as no container had
more good replicas than a rank can tell, a round takes those who wait for copies by ascending counts on
entry, and leaves nobody waiting whose count on entry is lower than that of one it takes.  The count on
entry is the present one for all who were not waiting yet; so the round goes by present counts if nobody's
has changed while waiting.  And with an open queue, whoever lacks replicas is taken by the round or left
waiting. -/
theorem neediest_on_entry_first (config : Config) (events : List Manager.Event) (now : Moment)
    (hFew : ∀ past ∈ events.inits,
      ((Manager.of config .empty .empty).afterAll past).store.FewGood) :
    let m := (Manager.of config .empty .empty).afterAll events
    let entry := (Manager.of config .empty .empty).entryCounts (fun _ => 0) (events ++ [.round now])
    m.TakesByCount now entry ∧
      (∀ id, m.queue.contains id .shortage = false → entry id = m.store.goodOf id) ∧
      ((∀ id, m.queue.contains id .shortage = true → entry id = m.store.goodOf id) →
        m.TakesByCount now m.store.goodOf) ∧
      (m.queue.closed = false → ∀ id s, m.store.snapshot id = .ok s →
        s.container.state = .quasiClosed ∨ s.container.state = .closed → s.count .good < s.factor →
          (∃ w ∈ m.batch now, w.container = id ∧ w.imbalance = .shortage) ∨
            (m.cycle now).2.queue.contains id .shortage = true) := by
  intro m entry
  have hFresh : (Manager.of config .empty .empty).Sound :=
    Manager.sound_of config Store.keyed_empty .empty
  have hSound : m.Sound := Manager.sound_afterAll hFresh events
  have hEntry : entry = m.countsAfter
      ((Manager.of config .empty .empty).entryCounts (fun _ => 0) events) (.round now) :=
    Manager.entryCounts_concat _ _ _ _
  have hRanked : (m.settledQueue now).line.RankedBy entry := by
    rw [hEntry]
    exact Manager.ranked_settledQueue hSound (Manager.ranked_afterAll hFresh
      (WaitingLine.rankedBy_of_nobody rfl _) events) now
  have hWord : ∀ id, entry id < UInt32.size := by
    intro id
    rw [hEntry, Manager.countsAfter]
    split
    · exact Manager.entryCounts_lt (fun _ => by decide) hFew id
    · exact hFew events ((List.mem_inits _ _).2 List.prefix_rfl) id
  have hTakes : m.TakesByCount now entry := Manager.takesByCount_of_rankedBy hSound now hRanked hWord
  have hNew : ∀ id, m.queue.contains id .shortage = false → entry id = m.store.goodOf id := by
    intro id hNot
    rw [hEntry, Manager.countsAfter, hNot]
    rfl
  refine ⟨hTakes, hNew, fun hSame => ?_, fun hOpen id s hKnown hStage hShort => ?_⟩
  · have hPresent : entry = m.store.goodOf := by
      funext id
      cases hWaits : m.queue.contains id .shortage with
      | true => exact hSame id hWaits
      | false => exact hNew id hWaits
    exact hPresent ▸ hTakes
  · obtain ⟨entry, hStored, hSnapshot⟩ := (Store.entry_map_eq_ok_iff _ _ _ _).1 hKnown
    have hEvaluation : (m.evaluations now).get? id = some (s.evaluate (m.lookup now)) := by
      rw [Manager.get?_evaluations, hStored, ← hSnapshot]
      rfl
    have hOwn : s.id = id := (Manager.proper_evaluations now hSound id _ hEvaluation).2
    have hWaiter : (s.evaluate (m.lookup now)).waiter? =
        some ⟨id, .shortage, UInt32.ofNat (s.count .good)⟩ := by
      have hRepaired : (s.evaluate (m.lookup now)).isRepairable = true :=
        (ContainerState.isRepairable_iff _).2 hStage
      have hUnder : (s.evaluate (m.lookup now)).capacity.isUnder = true := decide_eq_true hShort
      rw [Evaluation.waiter?, hRepaired, hUnder, ← hOwn]
      rfl
    refine (Manager.mem_batch_or_contains_cycle hSound now hOpen hEvaluation hWaiter).imp_left ?_
    rintro ⟨v, hv, hMember⟩
    simp only [Waiter.member, OrderedPair.mk.injEq] at hMember
    exact ⟨v, hv, hMember⟩

/-- The second of two containers has waited since the first round, in which it had two good replicas.  Now
it has three; the first one, taken in that round, has one good replica as before and is taken again. -/
theorem neediest_on_entry_first_of_two :
    let day : Timestamp := ⟨⟨2024, 1, 1, 0, 0, 0, 0⟩, by decide⟩
    let now : Moment := ⟨day, 1⟩
    let config : Config := { Config.default with maxRepairs := 1 }
    let report : ContainerId → NodeId → Report := fun id node =>
      ⟨id, node, .closed, some 7, some "a", false⟩
    let events : List Manager.Event :=
      [.update (.add ⟨⟨1⟩, .closed, 2, 0⟩), .update (.add ⟨⟨2⟩, .closed, 4, 0⟩),
        .ingest (report ⟨1⟩ "a"), .ingest (report ⟨2⟩ "a"), .ingest (report ⟨2⟩ "b"),
        .round ⟨day, 0⟩, .ingest (report ⟨2⟩ "c")]
    let m := (Manager.of config .empty .empty).afterAll events
    let entry := (Manager.of config .empty .empty).entryCounts (fun _ => 0) (events ++ [.round now])
    (∀ past ∈ events.inits, ((Manager.of config .empty .empty).afterAll past).store.FewGood) ∧
      m.queue.contains ⟨2⟩ .shortage = true ∧ entry ⟨2⟩ = 2 ∧ m.store.goodOf ⟨2⟩ = 3 ∧
      m.queue.contains ⟨1⟩ .shortage = false ∧ entry ⟨1⟩ = m.store.goodOf ⟨1⟩ ∧
      m.TakesByCount now entry := by
  intro day now config report events m entry
  have hFew : ∀ past ∈ events.inits,
      ((Manager.of config .empty .empty).afterAll past).store.FewGood := by decide +kernel
  have hTaken : m.queue.contains ⟨1⟩ .shortage = false := by decide +kernel
  obtain ⟨hTakes, hNew, -⟩ := neediest_on_entry_first config events now hFew
  exact ⟨hFew, by decide +kernel, by decide +kernel, by decide +kernel, hTaken, hNew ⟨1⟩ hTaken,
    hTakes⟩

/-- Present counts need not decide.  The second container has waited since it had two good replicas and has
lost both; the round takes the first one, which has one, and leaves the second waiting. -/
theorem needier_left_waiting :
    let day : Timestamp := ⟨⟨2024, 1, 1, 0, 0, 0, 0⟩, by decide⟩
    let now : Moment := ⟨day, 1⟩
    let config : Config := { Config.default with maxRepairs := 1 }
    let report : ContainerId → NodeId → ReplicaState → Report := fun id node state =>
      ⟨id, node, state, some 7, some "a", false⟩
    let events : List Manager.Event :=
      [.update (.add ⟨⟨1⟩, .closed, 2, 0⟩), .update (.add ⟨⟨2⟩, .closed, 3, 0⟩),
        .ingest (report ⟨1⟩ "a" .closed), .ingest (report ⟨2⟩ "a" .closed),
        .ingest (report ⟨2⟩ "b" .closed), .round ⟨day, 0⟩,
        .ingest (report ⟨2⟩ "a" .unhealthy), .ingest (report ⟨2⟩ "b" .unhealthy)]
    let m := (Manager.of config .empty .empty).afterAll events
    let read := fun id => ((m.store.snapshot id).map fun s =>
      (s.container.state, s.factor, s.count .good)).toOption
    m.queue.closed = false ∧
      (∀ past ∈ events.inits, ((Manager.of config .empty .empty).afterAll past).store.FewGood) ∧
      read ⟨1⟩ = some (.closed, 2, 1) ∧ read ⟨2⟩ = some (.closed, 3, 0) ∧
      m.batch now = [⟨⟨1⟩, .shortage, 1⟩] ∧
      (m.cycle now).2.queue.contains ⟨2⟩ .shortage = true ∧
      ¬ m.TakesByCount now m.store.goodOf := by
  intro day now config report events m read
  have hBatch : m.batch now = [⟨⟨1⟩, .shortage, 1⟩] := by decide +kernel
  have hLeft : (m.cycle now).2.queue.contains ⟨2⟩ .shortage = true := by decide +kernel
  have hLess : m.store.goodOf ⟨2⟩ < m.store.goodOf ⟨1⟩ := by decide +kernel
  refine ⟨by decide +kernel, by decide +kernel, by decide +kernel, by decide +kernel, hBatch, hLeft,
    fun hTakes => ?_⟩
  have hFirst : (⟨⟨1⟩, .shortage, 1⟩ : Waiter) ∈ m.batch now := by
    rw [hBatch]
    exact List.mem_singleton_self _
  exact Nat.not_le.2 hLess (hTakes.behind _ hFirst rfl ⟨2⟩ hLeft)

end ReplicaUpkeep
