import Mathlib.Data.List.Induction
import ReplicaUpkeep.Proofs.Manager.Round

/-!
# What a round counts

The counters are moved while a round goes on: once for every evaluation, for every directive as it is sent or
dropped, and for every waiter by what is held back for it.  The report is put together elsewhere.  That both
tell the same is shown step by step: each step moves every counter by just what it adds to the round's own
figures.
-/

namespace ReplicaUpkeep

/-- How far a round moves a counter. -/
def CycleReport.figure (r : CycleReport) : Counter → Nat
  | .evaluations => r.evaluated
  | .failures => r.failed
  | .dispatched .close => r.closes
  | .dispatched .replicate => r.replicates
  | .dispatched .delete => r.deletes
  | .withheld => r.withheld
  | .dropped => r.dropped
  | .suppressed => r.suppressed

namespace Metrics

theorem counter_add (m : Metrics) (n : UInt64) (c c' : Counter) :
    (m.add n c).counter c' = m.counter c' + if c' = c then n else 0 := by
  rcases c with _ | _ | (_ | _ | _) | _ | _ | _ <;>
    rcases c' with _ | _ | (_ | _ | _) | _ | _ | _ <;> simp [add, counter]

theorem counter_set (m : Metrics) (n : UInt64) (g : Gauge) (c : Counter) :
    (m.set n g).counter c = m.counter c := by
  cases g <;> rfl

theorem counter_recordEvaluation (m : Metrics) (took : Duration) (c : Counter) :
    (m.recordEvaluation took true).counter c =
      m.counter c + if c = .evaluations then 1 else 0 :=
  counter_add m 1 .evaluations c

/-- Evaluations that succeed move one counter only. -/
theorem counter_countEvaluations (m : Metrics) (es : List Evaluation) (c : Counter) :
    (Manager.countEvaluations m es).counter c =
      m.counter c + if c = .evaluations then UInt64.ofNat es.length else 0 := by
  unfold Manager.countEvaluations
  induction es generalizing m with
  | nil => simp
  | cons e rest ih =>
    rw [List.foldl_cons, ih, counter_recordEvaluation, List.length_cons, UInt64.add_assoc]
    split
    · rw [Nat.add_comm, UInt64.ofNat_add]
      rfl
    · rfl

/-- One more directive moves one counter by one. -/
theorem ofNat_countOf_concat (ds : List Directive) (d : Directive) (kind : DirectiveKind) :
    UInt64.ofNat (Plan.countOf (ds ++ [d]) kind) =
      UInt64.ofNat (Plan.countOf ds kind) +
        if Counter.dispatched kind = .dispatched d.kind then 1 else 0 := by
  simp only [Plan.countOf, Plan.ofKind, List.filter_append, List.length_append, UInt64.ofNat_add,
    Counter.dispatched.injEq]
  by_cases hKind : d.kind = kind
  · simp [hKind]
  · simp [hKind, Ne.symm hKind]

/-- Counting directives one by one as they are sent comes to their number by kind. -/
theorem counter_foldl_recordDispatched (m : Metrics) (ds : List Directive) (kind : DirectiveKind) :
    (ds.foldl (fun metrics d => metrics.recordDispatched d.kind) m).counter (.dispatched kind) =
      m.counter (.dispatched kind) + UInt64.ofNat (Plan.countOf ds kind) := by
  induction ds using List.reverseRecOn with
  | nil => simp [Plan.countOf, Plan.ofKind]
  | append_singleton past d ih =>
    rw [List.foldl_concat, recordDispatched, counter_add, ih, ofNat_countOf_concat, UInt64.add_assoc]

/-- Counting one by one as nothing more finds a place comes to the number of what is dropped. -/
theorem counter_foldl_dropped (m : Metrics) (ds : List Directive) :
    (ds.foldl (fun metrics _ => metrics.add 1 .dropped) m).counter .dropped =
      m.counter .dropped + UInt64.ofNat ds.length := by
  induction ds generalizing m with
  | nil => simp
  | cons d rest ih =>
    rw [List.foldl_cons, ih, counter_add, if_pos rfl, List.length_cons, Nat.add_comm,
      UInt64.ofNat_add, UInt64.add_assoc]
    rfl

/-- Counting in turn what is held back for each of some waiters comes to the sum. -/
theorem counter_foldl_held (m : Metrics) (batch : List Waiter) (held : Waiter → Nat) :
    (batch.foldl (fun metrics w => metrics.add (UInt64.ofNat (held w)) .suppressed) m).counter
        .suppressed =
      m.counter .suppressed + UInt64.ofNat (batch.foldr (fun w n => held w + n) 0) := by
  induction batch generalizing m with
  | nil => simp
  | cons w rest ih =>
    rw [List.foldl_cons, ih, counter_add, if_pos rfl, List.foldr_cons, UInt64.ofNat_add,
      UInt64.add_assoc]

end Metrics

/-! ## Directives in turn -/

namespace Dispatch

/-- Try to send one directive, and count it as sent or as dropped. -/
def trySend (d : Dispatch) (x : Directive) : Dispatch :=
  let sent := d.outbox.send x
  if sent.1 then { d with
    outbox := sent.2
    accepted := d.accepted ++ [x]
    metrics := d.metrics.recordDispatched x.kind }
  else { d with
    dropped := d.dropped + 1
    metrics := d.metrics.add 1 .dropped }

/-- To send directives is to try them one after another. -/
theorem send_eq_foldl (d : Dispatch) (ds : List Directive) : (d.send ds).2 = ds.foldl trySend d := by
  induction ds generalizing d with
  | nil => simp [send]
  | cons x rest ih =>
    rw [List.foldl_cons, ← ih]
    by_cases hAccepts : d.outbox.accepts = true
    · have hSent : (d.outbox.send x).1 = true := by rw [Outbox.send, if_pos hAccepts]
      simp [send, Outbox.sendAll_cons, trySend, hSent]
    · -- The outbox stays as it was, so the others are dropped like the first.
      have hSent : d.outbox.send x = (false, d.outbox) := if_neg hAccepts
      simp [send, trySend, hSent, Outbox.sendAll_of_not_accepts hAccepts, Nat.add_assoc,
        Nat.add_comm 1]

/-- How far a dispatch has moved a counter. -/
def figure (d : Dispatch) : Counter → Nat
  | .dispatched kind => Plan.countOf d.accepted kind
  | .dropped => d.dropped
  | .suppressed => d.suppressed
  | _ => 0

/-- A dispatch that has moved every counter by what it has come to. -/
def Counted (first : Metrics) (d : Dispatch) : Prop :=
  ∀ c, d.metrics.counter c = first.counter c + UInt64.ofNat (d.figure c)

theorem counted_start (queue : RepairQueue) (outbox : Outbox) (first : Metrics) :
    (start queue outbox first).Counted first := by
  intro c
  cases c <;> simp [start, figure, Plan.countOf, Plan.ofKind]

section Counted

variable {first : Metrics} {d : Dispatch} (h : d.Counted first)
include h

theorem counted_trySend (x : Directive) : (d.trySend x).Counted first := by
  intro c
  simp only [trySend]
  split
  · show (d.metrics.add 1 (.dispatched x.kind)).counter c = _
    rw [Metrics.counter_add, h c, UInt64.add_assoc]
    refine congrArg (first.counter c + ·) ?_
    cases c with
    | dispatched kind => exact (Metrics.ofNat_countOf_concat d.accepted x kind).symm
    | _ => simp [figure]
  · rw [Metrics.counter_add, h c, UInt64.add_assoc]
    cases c <;> simp [figure, UInt64.ofNat_add]

/-- Sending keeps the count since every single try does. -/
theorem counted_send (ds : List Directive) : (d.send ds).2.Counted first := by
  rw [send_eq_foldl]
  induction ds generalizing d with
  | nil => exact h
  | cons x rest ih => exact ih (counted_trySend h x)

theorem counted_hold (queue : RepairQueue) (n : Nat) :
    Counted first { d with
      queue
      suppressed := d.suppressed + n
      metrics := d.metrics.add (UInt64.ofNat n) .suppressed } := by
  intro c
  rw [Metrics.counter_add, h c, UInt64.add_assoc]
  cases c <;> simp [figure, UInt64.ofNat_add]

/-- What is held back is counted before anything is sent; recording the flight moves no counter. -/
theorem counted_repair (now : Nat) (ttl : Duration) (w : Waiter) (e : Evaluation) :
    (d.repair now ttl w e).Counted first :=
  counted_send (counted_hold h _ _) _

theorem counted_repairAll (now : Nat) (ttl : Duration) (evaluations : Table ContainerId Evaluation)
    (batch : List Waiter) : (d.repairAll now ttl evaluations batch).Counted first := by
  rw [repairAll_eq_foldl]
  induction batch generalizing d with
  | nil => exact h
  | cons w rest ih =>
    refine ih ?_
    unfold serve
    cases evaluations.get? w.container with
    | none => exact h
    | some e => exact counted_repair h now ttl w e

end Counted

end Dispatch

namespace Manager

variable (m : Manager) (now : Moment)

theorem counted_dispatchRound (evaluations : Table ContainerId Evaluation) (queue : RepairQueue) :
    (m.dispatchRound now evaluations queue).Counted
      (countEvaluations m.metrics evaluations.values) :=
  Dispatch.counted_repairAll (d := { (Dispatch.send _ _).2 with queue := _ })
    (Dispatch.counted_send (Dispatch.counted_start _ _ _) _) _ _ _ _

/-- A round moves every counter by the figure that it reports, that of failures only if nothing fails. -/
theorem counter_cycle {c : Counter} (hFailures : c = .failures → (m.cycle now).1.failed = 0) :
    (m.cycle now).2.metrics.counter c =
      m.metrics.counter c + UInt64.ofNat ((m.cycle now).1.figure c) := by
  have hRound := m.counted_dispatchRound now (m.evaluations now)
    (m.queue.settleAll (m.evaluations now).values).2 c
  rw [Metrics.counter_countEvaluations] at hRound
  show (metricsAfter (m.dispatchRound now _ _).metrics _).counter c = _
  rw [metricsAfter, Metrics.counter_set, Metrics.counter_set, Metrics.counter_set,
    Metrics.counter_add, hRound, UInt64.add_assoc, UInt64.add_assoc]
  refine congrArg (m.metrics.counter c + ·) ?_
  cases c with
  | evaluations => simp [Dispatch.figure, CycleReport.figure, cycle, reportOf]
  | failures => simp [Dispatch.figure, CycleReport.figure, hFailures rfl]
  | withheld => exact (UInt64.zero_add _).trans (UInt64.zero_add _)
  | dispatched kind => cases kind <;> exact (UInt64.zero_add _).trans (UInt64.add_zero _)
  | _ => exact (UInt64.zero_add _).trans (UInt64.add_zero _)

end Manager

end ReplicaUpkeep
