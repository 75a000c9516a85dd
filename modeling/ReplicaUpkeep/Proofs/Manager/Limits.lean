import ReplicaUpkeep.Proofs.Image.Building
import ReplicaUpkeep.Proofs.Manager.Accounting

/-!
# The limits of the machine

A configuration that is accepted can still ask for more than the machine can hold: an outbox for more
directives than any can be made for, or a deadline behind the last second of the clock.  The first stops a
manager from being made.  The second shows only when a repair is sent, for no other step sets a deadline;
so a round breaks down at the first repair that the outbox takes, and a round that sends none comes to
its end whatever the timeout.

Memory is not limited here.
-/

namespace ReplicaUpkeep

theorem RepairQueue.map_record? {α : Type} (f : RepairQueue → α) (q : RepairQueue) (id : ContainerId)
    (kind : DirectiveKind) (count now : Nat) (ttl : Duration) :
    (q.record? id kind count now ttl).map f =
      if count = 0 ∨ Inflight.InRange now ttl then
        some (f (q.record id kind (UInt64.ofNat count) now ttl)) else none := by
  unfold record?
  split <;> rfl

namespace Dispatch

/-! ## Deadlines step by step -/

section Steps

variable (now : Nat) (ttl : Duration) (evaluations : Table ContainerId Evaluation)

/-- Repair one waiter, if its container was evaluated, and break down at a deadline out of range. -/
def serve? (d : Dispatch) (w : Waiter) : Option Dispatch :=
  match evaluations.get? w.container with
  | none => some d
  | some e =>
    let kind := w.imbalance.repair
    let wanted := e.ofKind kind
    let asked := d.queue.current w.container kind now
    let suppressed := min asked.1.toNat wanted.length
    let held := { d with
      queue := asked.2
      suppressed := d.suppressed + suppressed
      metrics := d.metrics.add (UInt64.ofNat suppressed) .suppressed }
    let sent := held.send (wanted.drop suppressed)
    (sent.2.queue.record? w.container kind sent.1 now ttl).map fun queue => { sent.2 with queue }

/-- Repair a batch up to the first deadline that is out of range. -/
def repairAll? (d : Dispatch) (batch : List Waiter) : Option Dispatch :=
  batch.foldlM (serve? now ttl evaluations) d

/-- One waiter breaks the round down exactly if something is sent for it and the deadline is out of
range. -/
theorem serve?_eq (d : Dispatch) (w : Waiter) :
    serve? now ttl evaluations d w =
      if (serve now ttl evaluations d w).accepted.length = d.accepted.length ∨
        Inflight.InRange now ttl then some (serve now ttl evaluations d w) else none := by
  unfold serve? serve
  cases evaluations.get? w.container with
  | none => simp
  | some e =>
    simp only [RepairQueue.map_record?, repair, send, List.length_append, Nat.add_eq_left]

theorem length_accepted_le_serve (d : Dispatch) (w : Waiter) :
    d.accepted.length ≤ (serve now ttl evaluations d w).accepted.length := by
  rw [(serve_dispatches now ttl evaluations d w).2.1, List.length_append]
  exact Nat.le_add_right _ _

theorem length_accepted_le_repairAll (d : Dispatch) (batch : List Waiter) :
    d.accepted.length ≤ (d.repairAll now ttl evaluations batch).accepted.length := by
  rw [repairAll_eq_foldl]
  induction batch generalizing d with
  | nil => exact Nat.le_refl _
  | cons w rest ih =>
    exact Nat.le_trans (length_accepted_le_serve now ttl evaluations d w) (ih _)

/-- A batch breaks the round down exactly if anything at all is sent for it and the deadline is out of
range. -/
theorem repairAll?_eq (d : Dispatch) (batch : List Waiter) :
    d.repairAll? now ttl evaluations batch =
      if (d.repairAll now ttl evaluations batch).accepted.length = d.accepted.length ∨
        Inflight.InRange now ttl then some (d.repairAll now ttl evaluations batch) else none := by
  induction batch generalizing d with
  | nil => simp [repairAll?, repairAll]
  | cons w rest ih =>
    have hFirst := length_accepted_le_serve now ttl evaluations d w
    have hRest := length_accepted_le_repairAll now ttl evaluations
      (serve now ttl evaluations d w) rest
    have hAll : d.repairAll now ttl evaluations (w :: rest) =
        (serve now ttl evaluations d w).repairAll now ttl evaluations rest := rfl
    have hStep : d.repairAll? now ttl evaluations (w :: rest) =
        (serve? now ttl evaluations d w).bind fun d => d.repairAll? now ttl evaluations rest := rfl
    rw [hStep, hAll, serve?_eq]
    by_cases hRange : Inflight.InRange now ttl
    · simp [hRange, ih]
    · by_cases hNothing : (serve now ttl evaluations d w).accepted.length = d.accepted.length
      · simp [hRange, hNothing, ih]
      · -- What is sent for the first waiter stays sent, so the whole batch sends something.
        have hSome : ¬ ((serve now ttl evaluations d w).repairAll now ttl evaluations
            rest).accepted.length = d.accepted.length := by omega
        simp [hRange, hNothing, hSome]

end Steps

end Dispatch

namespace Manager

variable (m : Manager) (now : Moment)

/-- The dispatching of a round, up to the first deadline that is out of range. -/
def dispatchRound? (evaluations : Table ContainerId Evaluation) (queue : RepairQueue) :
    Option Dispatch :=
  let closes := evaluations.values.flatMap (fun e => e.ofKind .close)
  let counted := countEvaluations m.metrics evaluations.values
  let closed := ((Dispatch.start queue m.outbox counted).send closes).2
  let taken := closed.queue.dequeue m.config.maxRepairs.toNat
  { closed with queue := taken.2 }.repairAll? now.steady m.config.inflightTimeout evaluations taken.1

/-- One round in which every deadline is checked as it is set. -/
def cycleInSteps? : Option (CycleReport × Manager) :=
  let evaluations := m.evaluations now
  let settled := m.queue.settleAll evaluations.values
  (m.dispatchRound? now evaluations settled.2).map fun dispatched =>
    let report := reportOf evaluations.values settled.1 dispatched
    (report, { m with
      queue := dispatched.queue
      outbox := dispatched.outbox
      metrics := metricsAfter dispatched.metrics report })

theorem dispatchRound?_eq :
    m.dispatchRound? now (m.evaluations now) (m.settledQueue now) =
      (m.opening now).repairAll? now.steady m.config.inflightTimeout (m.evaluations now)
        (m.batch now) := by
  have hBatch : ((m.settledQueue now).dequeue m.config.maxRepairs.toNat).1 = m.batch now :=
    WaitingLine.batch_fst _ _
  rw [← hBatch]
  rfl

theorem canStamp_iff : m.canStamp now = true ↔
    Inflight.InRange now.steady m.config.inflightTimeout := by
  rw [canStamp, decide_eq_true_eq]

theorem kind_of_mem_closes {d : Directive} (hd : d ∈ m.closes now) : d.kind = .close := by
  obtain ⟨e, -, hClose⟩ := List.mem_flatMap.1 hd
  simpa using (List.mem_filter.1 hClose).2

theorem kind_of_mem_repairs {d : Directive} (hd : d ∈ m.repairs now) : d.kind ≠ .close := by
  obtain ⟨w, -, hAttempt⟩ := List.mem_flatMap.1 hd
  have hWanted : d ∈ Dispatch.wanted (m.evaluations now) w := List.mem_of_mem_drop hAttempt
  unfold Dispatch.wanted at hWanted
  cases hEvaluation : (m.evaluations now).get? w.container with
  | none => simp [hEvaluation] at hWanted
  | some e =>
    rw [hEvaluation, Option.elim_some] at hWanted
    have hKind : d.kind = w.imbalance.repair := by simpa using (List.mem_filter.1 hWanted).2
    rw [hKind]
    cases w.imbalance <;> decide

/-- The closes among what a round sends are those that there is room for. -/
theorem countOf_close_sentIn :
    Plan.countOf (m.sentIn now) .close = min m.outbox.room (m.closes now).length := by
  have hCloses : Plan.ofKind ((m.closes now).take m.outbox.room) .close =
      (m.closes now).take m.outbox.room :=
    List.filter_eq_self.2 fun d hd => by
      simpa using m.kind_of_mem_closes now (List.mem_of_mem_take hd)
  have hRepairs : ∀ n, Plan.ofKind ((m.repairs now).take n) .close = [] := fun n =>
    List.filter_eq_nil_iff.2 fun d hd => by
      simpa using m.kind_of_mem_repairs now (List.mem_of_mem_take hd)
  rw [Plan.ofKind] at hCloses
  simp only [Plan.ofKind] at hRepairs
  rw [Plan.countOf, Plan.ofKind, sentIn, attempts, List.take_append, List.filter_append, hCloses,
    hRepairs, List.append_nil, List.length_take]

section Sound

variable {m} (h : m.Sound)
include h

/-- The repairs among what a round sends are those that its closes leave room for. -/
theorem repairs_sent :
    (m.cycle now).1.replicates + (m.cycle now).1.deletes =
      min (m.outbox.room - (m.closes now).length) (m.repairs now).length := by
  have hReplicates : (m.cycle now).1.replicates = Plan.countOf (m.sentIn now) .replicate :=
    sent_by_kind now h .replicate
  have hDeletes : (m.cycle now).1.deletes = Plan.countOf (m.sentIn now) .delete :=
    sent_by_kind now h .delete
  have hAll := Plan.countOf_add (m.sentIn now)
  have hLength : (m.sentIn now).length = min m.outbox.room (m.attempts now).length :=
    List.length_take
  rw [countOf_close_sentIn] at hAll
  rw [attempts, List.length_append] at hLength
  omega

/-- A round comes to its end exactly if its deadlines are in range, or it has no repair to send, or its
closes leave no room for one. -/
theorem isSome_cycle?_iff : (m.cycle? now).isSome = true ↔
    Inflight.InRange now.steady m.config.inflightTimeout ∨
      m.outbox.room ≤ (m.closes now).length ∨ m.repairs now = [] := by
  have hSent := repairs_sent now h
  have hNone : (m.cycle now).1.replicates + (m.cycle now).1.deletes = 0 ↔
      m.outbox.room ≤ (m.closes now).length ∨ m.repairs now = [] := by
    rw [hSent, ← List.length_eq_zero_iff]
    omega
  rw [← canStamp_iff, ← hNone, cycle?]
  split <;> rename_i hEnd
  · simpa [or_comm] using hEnd
  · simpa [or_comm] using hEnd

/-- It is the first deadline out of range that breaks a round down. -/
theorem cycleInSteps?_eq : m.cycleInSteps? now = m.cycle? now := by
  have hSent := repairs_sent now h
  have hAccepted := congrArg List.length (dispatchRound_dispatches now h).2.1
  have hLength : (m.sentIn now).length = min m.outbox.room (m.attempts now).length :=
    List.length_take
  have hOpening : (m.opening now).accepted.length = min m.outbox.room (m.closes now).length :=
    List.length_take
  -- The outbox takes more than the closes exactly if it takes a repair.
  have hNothing : (m.dispatchRound now (m.evaluations now) (m.settledQueue now)).accepted.length =
      (m.opening now).accepted.length ↔
        (m.cycle now).1.replicates + (m.cycle now).1.deletes = 0 := by
    rw [attempts, List.length_append] at hLength
    omega
  have hRound : m.dispatchRound? now (m.evaluations now) (m.settledQueue now) =
      if (m.cycle now).1.replicates + (m.cycle now).1.deletes = 0 ∨ m.canStamp now = true then
        some (m.dispatchRound now (m.evaluations now) (m.settledQueue now)) else none := by
    rw [dispatchRound?_eq, Dispatch.repairAll?_eq, ← dispatchRound_eq]
    simp only [hNothing, canStamp_iff]
  rw [settledQueue] at hRound
  rw [cycleInSteps?, hRound, cycle?]
  split <;> rfl

end Sound

end Manager

/-- What is accepted leaves room for a directive. -/
theorem Config.capacity_pos {c : Config} (h : c.validate = .ok c) : 0 < c.capacity.toNat := by
  refine Nat.pos_of_ne_zero fun hZero => ?_
  have hNone : c.capacity = 0 := UInt64.toNat_inj.1 hZero
  have hFault : c.fault? ≠ none := by
    unfold fault?
    split
    · nofun
    · split
      · nofun
      · simp
  obtain ⟨fault, hFault⟩ := Option.ne_none_iff_exists'.1 hFault
  simp [validate, hFault] at h

/-- An accepted configuration can be run within two limits.  A manager is made exactly if an outbox can be
made for so many directives.  Its first round then comes to its end exactly if the clock can show the
deadline of a repair that is sent now, or the closes fill the outbox, or no repair is to be sent; where it
breaks down, it does so at the first deadline that it sets. -/
theorem accepted_settings_run_within_limits (config : Config)
    (hAccepted : config.validate = .ok config) (store : Store) (hKeyed : store.Keyed)
    (registry : Registry) (now : Moment) :
    ((Manager.create? config store registry).isSome = true ↔
        config.capacity.toNat ≤ Manager.maxCapacity) ∧
      ∀ m, Manager.create? config store registry = some m →
        m.cycleInSteps? now = m.cycle? now ∧
          ((m.cycle? now).isSome = true ↔
            Inflight.InRange now.steady config.inflightTimeout ∨
              config.capacity.toNat ≤ (m.closes now).length ∨ m.repairs now = []) := by
  rw [Manager.create?]
  refine ⟨by split <;> simp_all, fun m hMade => ?_⟩
  obtain rfl : Manager.of config store registry = m := by
    split at hMade
    · exact Option.some.inj hMade
    · cases hMade
  have hSound := Manager.sound_of config hKeyed registry
  have hRoom : (Manager.of config store registry).outbox.room = config.capacity.toNat :=
    Nat.max_eq_left (Config.capacity_pos hAccepted)
  refine ⟨Manager.cycleInSteps?_eq now hSound, ?_⟩
  rw [Manager.isSome_cycle?_iff now hSound, hRoom]
  rfl

/-- A copy is missing of one container, and within the limits it is sent. -/
theorem accepted_settings_run_within_limits_of_one :
    let now : Moment := ⟨⟨⟨2024, 1, 1, 0, 0, 0, 0⟩, by decide⟩, 0⟩
    let image : ClusterImage := {
      nodes := [⟨"a", "", ⟨.inService, .healthy, none⟩⟩]
      containers := [⟨⟨1⟩, .closed, 2, 0⟩]
      reports := [⟨⟨1⟩, "a", .closed, some 7, some "a", false⟩] }
    Config.default.validate = .ok .default ∧
      ∃ parts m, image.build = .ok parts ∧ parts.1.Keyed ∧
        Manager.create? .default parts.1 parts.2 = some m ∧
        m.repairs now = [.replicate ⟨1⟩ (some "a")] ∧ (m.cycle? now).isSome = true := by
  intro now image
  have hParts : (image.build.toOption.map fun parts =>
      ((Manager.of .default parts.1 parts.2).repairs now)) = some [.replicate ⟨1⟩ (some "a")] := by
    decide +kernel
  cases hBuild : image.build with
  | error fault =>
    rw [hBuild] at hParts
    cases hParts
  | ok parts =>
    rw [hBuild] at hParts
    have hRepairs := Option.some.inj hParts
    have hKeyed : parts.1.Keyed := ClusterImage.keyed_build hBuild
    obtain ⟨hMade, hRuns⟩ :=
      accepted_settings_run_within_limits .default (by decide) parts.1 hKeyed parts.2 now
    obtain ⟨m, hSome⟩ := Option.isSome_iff_exists.1 (hMade.2 (by decide))
    obtain rfl : Manager.of .default parts.1 parts.2 = m := Option.some.inj hSome
    exact ⟨by decide, parts, _, rfl, hKeyed, hSome, hRepairs, (hRuns _ hSome).2.2 (.inl (by decide))⟩

/-- Settings that are accepted, with durations that can be written, and still cannot be run with: no
manager has an outbox for so many directives, and no clock shows a moment so late. -/
theorem accepted_settings_break_down :
    let wide : Config := { Config.default with capacity := 9223372036854775807 }
    let late : Config := { Config.default with inflightTimeout := .ofSeconds 18446744073709551615 }
    let now : Moment := ⟨⟨⟨2024, 1, 1, 0, 0, 0, 0⟩, by decide⟩, 0⟩
    let image : ClusterImage := {
      nodes := [⟨"a", "", ⟨.inService, .healthy, none⟩⟩]
      containers := [⟨⟨1⟩, .closed, 2, 0⟩]
      reports := [⟨⟨1⟩, "a", .closed, some 7, some "a", false⟩] }
    (wide.validate = .ok wide ∧ late.validate = .ok late ∧
        Duration.parse "30s" = .ok wide.interval ∧ Duration.parse "600s" = .ok wide.inflightTimeout ∧
        Duration.parse "18446744073709551615s" = .ok late.inflightTimeout) ∧
      (∀ store registry, Manager.create? wide store registry = none) ∧
      ∃ parts m, image.build = .ok parts ∧ Manager.create? late parts.1 parts.2 = some m ∧
        m.cycle? now = none := by
  intro wide late now image
  refine ⟨⟨by decide, by decide, by decide +kernel, by decide +kernel, by decide +kernel⟩, ?_, ?_⟩
  · exact fun store registry => if_neg (by decide)
  · have hParts : (image.build.toOption.map fun parts =>
        ((Manager.of late parts.1 parts.2).cycle? now).isNone) = some true := by
      decide +kernel
    cases hBuild : image.build with
    | error fault =>
      rw [hBuild] at hParts
      cases hParts
    | ok parts =>
      rw [hBuild] at hParts
      exact ⟨parts, _, rfl, if_pos (by decide), Option.isNone_iff_eq_none.1 (Option.some.inj hParts)⟩

end ReplicaUpkeep
