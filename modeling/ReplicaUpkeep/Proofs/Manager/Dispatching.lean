import ReplicaUpkeep.Proofs.Queue.Settling

/-!
# Repairing a batch

The repairs of a batch are attempted one waiter after another, and for each of them all that is wanted
behind what is in flight.  Where nobody stands in the batch twice, no waiter's repairs change what
another one attempts.  So the whole batch is one list of attempts, known before the first of them is
made, and the outbox takes the front of that list; what is in flight afterwards is read off from what was
taken.
-/

namespace ReplicaUpkeep

/-- What repairs are counted by. -/
def Directive.key (d : Directive) : RepairKey :=
  ⟨d.container, d.kind⟩

namespace Waiter

/-- What the repairs of a waiter are counted by. -/
def key (w : Waiter) : RepairKey :=
  ⟨w.container, w.imbalance.repair⟩

theorem key_eq_iff (v w : Waiter) : v.key = w.key ↔ v.member = w.member := by
  have hRepair : v.imbalance.repair = w.imbalance.repair ↔ v.imbalance = w.imbalance := by
    cases v.imbalance <;> cases w.imbalance <;> simp [Imbalance.repair]
  simp [key, member, hRepair]

theorem nodup_key_iff (l : List Waiter) :
    (l.map Waiter.key).Nodup ↔ (l.map Waiter.member).Nodup := by
  simp only [List.Nodup, List.pairwise_map, ne_eq, key_eq_iff]

end Waiter

namespace Inflight

theorem current_fst_congr {f g : Inflight} {id : ContainerId} {kind : DirectiveKind}
    (h : f.flights.get? ⟨id, kind⟩ = g.flights.get? ⟨id, kind⟩) (now : Nat) :
    (f.current id kind now).1 = (g.current id kind now).1 := by
  rw [current_fst, current_fst, h]

/-- Asking again gives the same answer. -/
theorem current_fst_current (f : Inflight) (id : ContainerId) (kind : DirectiveKind) (now : Nat) :
    ((f.current id kind now).2.current id kind now).1 = (f.current id kind now).1 := by
  rw [current_fst, current_fst, get?_current, if_pos rfl]
  cases f.flights.get? ⟨id, kind⟩ with
  | none => rfl
  | some flight => by_cases hTime : now < flight.deadline <;> simp [Option.filter, hTime, countAt]

/-- Asking and recording leaves one flight of what counted before and what is new, or what has not
lapsed. -/
theorem get?_record_current (f : Inflight) (id : ContainerId) (kind : DirectiveKind)
    (count : UInt64) (now : Nat) (ttl : Duration) :
    ((f.current id kind now).2.record id kind count now ttl).flights.get? ⟨id, kind⟩ =
      if count = 0 then
        (f.flights.get? ⟨id, kind⟩).filter (fun flight => now < flight.deadline)
      else some ⟨(f.current id kind now).1 + count, now + ttl.totalNanos⟩ := by
  rw [get?_record, current_fst_current, get?_current, if_pos rfl]
  by_cases hCount : count = 0
  · simp [hCount]
  · simp [hCount]

theorem get?_record_current_of_ne (f : Inflight) {id : ContainerId} {kind : DirectiveKind}
    {key : RepairKey} (hKey : key ≠ ⟨id, kind⟩) (count : UInt64) (now : Nat) (ttl : Duration) :
    ((f.current id kind now).2.record id kind count now ttl).flights.get? key =
      f.flights.get? key := by
  simp [get?_record, get?_current, hKey]

end Inflight

/-- Nothing is accepted of what was not attempted. -/
theorem Outbox.filter_sendAll_eq_nil (o : Outbox) {attempts : List Directive}
    {p : Directive → Bool} (hNone : attempts.filter p = []) :
    (o.sendAll attempts).1.filter p = [] :=
  List.prefix_nil.1 (hNone ▸ (List.take_prefix _ _).filter p)

/-- The evaluations of a table are regular and stand under their own containers. -/
def Proper (evaluations : Table ContainerId Evaluation) : Prop :=
  ∀ id e, evaluations.get? id = some e → e.Regular ∧ e.id = id

/-- Where only one member of a list gives anything, that is all the list gives. -/
theorem flatMap_eq_of_alone {α β : Type} {l : List α} (hNodup : l.Nodup) {a : α} (ha : a ∈ l)
    {f : α → List β} (hOthers : ∀ b ∈ l, b ≠ a → f b = []) : l.flatMap f = f a := by
  induction l with
  | nil => cases ha
  | cons b rest ih =>
    rw [List.nodup_cons] at hNodup
    rw [List.flatMap_cons]
    rcases List.mem_cons.1 ha with rfl | hRest
    · have hNone : rest.flatMap f = [] := List.flatMap_eq_nil_iff.2 fun c hc =>
        hOthers c (List.mem_cons_of_mem _ hc) fun hSame => hNodup.1 (hSame ▸ hc)
      rw [hNone, List.append_nil]
    · have hNe : b ≠ a := fun hSame => hNodup.1 (hSame ▸ hRest)
      rw [hOthers b List.mem_cons_self hNe, List.nil_append]
      exact ih hNodup.2 hRest fun c hc => hOthers c (List.mem_cons_of_mem _ hc)

namespace Dispatch

/-- The repairs that the evaluations of a round want for a waiter. -/
def wanted (evaluations : Table ContainerId Evaluation) (w : Waiter) : List Directive :=
  (evaluations.get? w.container).elim [] (fun e => e.ofKind w.imbalance.repair)

/-- The repairs of a waiter that are attempted: all that are wanted behind as many as are in flight. -/
def attempt (q : RepairQueue) (now : Nat) (evaluations : Table ContainerId Evaluation) (w : Waiter) :
    List Directive :=
  (wanted evaluations w).drop (q.inflightAt w.container w.imbalance.repair now)

/-- How many of the repairs wanted for a waiter are held back, since earlier ones are in flight. -/
def heldBack (q : RepairQueue) (now : Nat) (evaluations : Table ContainerId Evaluation) (w : Waiter) :
    Nat :=
  min (q.inflightAt w.container w.imbalance.repair now) (wanted evaluations w).length

/-- How many repairs are held back for a whole batch. -/
def heldBackIn (q : RepairQueue) (now : Nat) (evaluations : Table ContainerId Evaluation) :
    List Waiter → Nat
  | [] => 0
  | w :: rest => heldBack q now evaluations w + heldBackIn q now evaluations rest

/-- Repair one waiter, if its container was evaluated. -/
def serve (now : Nat) (ttl : Duration) (evaluations : Table ContainerId Evaluation) (d : Dispatch)
    (w : Waiter) : Dispatch :=
  match evaluations.get? w.container with
  | none => d
  | some e => d.repair now ttl w e

theorem repairAll_eq_foldl (d : Dispatch) (now : Nat) (ttl : Duration)
    (evaluations : Table ContainerId Evaluation) (batch : List Waiter) :
    d.repairAll now ttl evaluations batch = batch.foldl (serve now ttl evaluations) d :=
  rfl

theorem key_of_mem_attempt {evaluations : Table ContainerId Evaluation} (hProper : Proper evaluations)
    {q : RepairQueue} {now : Nat} {w : Waiter} {x : Directive}
    (hx : x ∈ attempt q now evaluations w) : x.key = w.key := by
  have hWanted : x ∈ wanted evaluations w := List.mem_of_mem_drop hx
  unfold wanted at hWanted
  cases hEvaluation : evaluations.get? w.container with
  | none =>
    rw [hEvaluation] at hWanted
    cases hWanted
  | some e =>
    obtain ⟨hRegular, hId⟩ := hProper _ e hEvaluation
    rw [hEvaluation, Option.elim_some] at hWanted
    obtain ⟨hMem, hKind⟩ := List.mem_filter.1 hWanted
    rw [decide_eq_true_eq] at hKind
    rw [Directive.key, Waiter.key, hRegular.own x hMem, hId, hKind]

/-! ## Whose a directive is -/

section Proper

variable {evaluations : Table ContainerId Evaluation} (hProper : Proper evaluations)
  (q : RepairQueue) (now : Nat)
include hProper

theorem filter_key_attempt_self (w : Waiter) :
    (attempt q now evaluations w).filter (fun x => x.key = w.key) = attempt q now evaluations w := by
  refine List.filter_eq_self.2 fun x hx => ?_
  simpa using key_of_mem_attempt hProper hx

theorem filter_key_attempt_eq_nil {w : Waiter} {key : RepairKey} (hKey : w.key ≠ key) :
    (attempt q now evaluations w).filter (fun x => x.key = key) = [] := by
  refine List.filter_eq_nil_iff.2 fun x hx => ?_
  simpa [key_of_mem_attempt hProper hx] using hKey

/-- A batch attempts nothing for one who is not in it. -/
theorem filter_key_flatMap_attempt_eq_nil {batch : List Waiter} {key : RepairKey}
    (hNobody : ∀ w ∈ batch, w.key ≠ key) :
    (batch.flatMap (attempt q now evaluations)).filter (fun x => x.key = key) = [] := by
  rw [List.filter_flatMap, List.flatMap_eq_nil_iff]
  exact fun w hw => filter_key_attempt_eq_nil hProper q now (hNobody w hw)

/-- Of the attempts of a batch, those for one waiter are its own. -/
theorem filter_key_flatMap_attempt {batch : List Waiter} (hKeys : (batch.map Waiter.key).Nodup)
    {w : Waiter} (hw : w ∈ batch) :
    (batch.flatMap (attempt q now evaluations)).filter (fun x => x.key = w.key) =
      attempt q now evaluations w := by
  rw [List.filter_flatMap, flatMap_eq_of_alone (List.Nodup.of_map _ hKeys) hw,
    filter_key_attempt_self hProper]
  intro v hv hOther
  exact filter_key_attempt_eq_nil hProper q now fun hSame =>
    hOther (List.inj_on_of_nodup_map hKeys hv hw hSame)

end Proper

/-! ## One waiter -/

section Serve

variable (now : Nat) (ttl : Duration) (evaluations : Table ContainerId Evaluation) (d : Dispatch)
  (w : Waiter)

theorem drop_min_length {α : Type} (l : List α) (n : Nat) :
    l.drop (min n l.length) = l.drop n := by
  rcases Nat.le_total n l.length with hle | hle
  · rw [Nat.min_eq_left hle]
  · rw [Nat.min_eq_right hle, List.drop_length, List.drop_eq_nil_of_le hle]

/-- What is sent for a waiter are its attempts, in one go. -/
theorem serve_dispatches :
    let sent := d.outbox.sendAll (attempt d.queue now evaluations w)
    (serve now ttl evaluations d w).outbox = sent.2 ∧
      (serve now ttl evaluations d w).accepted = d.accepted ++ sent.1 ∧
      (serve now ttl evaluations d w).dropped =
        d.dropped + ((attempt d.queue now evaluations w).length - sent.1.length) ∧
      (serve now ttl evaluations d w).suppressed =
        d.suppressed + heldBack d.queue now evaluations w := by
  unfold serve attempt heldBack wanted
  cases evaluations.get? w.container with
  | none => simp
  | some e =>
    simp only [Option.elim_some, repair, send, RepairQueue.inflightAt, drop_min_length]
    exact ⟨trivial, trivial, trivial, trivial⟩

theorem line_serve :
    (serve now ttl evaluations d w).queue.line = d.queue.line ∧
      (serve now ttl evaluations d w).queue.closed = d.queue.closed := by
  unfold serve
  cases evaluations.get? w.container <;> exact ⟨rfl, rfl⟩

theorem get?_serve_of_ne {key : RepairKey} (hKey : key ≠ w.key) :
    (serve now ttl evaluations d w).queue.inflight.flights.get? key =
      d.queue.inflight.flights.get? key := by
  unfold serve
  cases evaluations.get? w.container with
  | none => rfl
  | some e => exact Inflight.get?_record_current_of_ne _ hKey _ now ttl

/-- What was accepted for a waiter flies together with what still counted before. -/
theorem get?_serve {e : Evaluation} (hEvaluation : evaluations.get? w.container = some e) :
    (serve now ttl evaluations d w).queue.inflight.flights.get? w.key =
      let sent := (d.outbox.sendAll (attempt d.queue now evaluations w)).1.length
      if UInt64.ofNat sent = 0 then
        (d.queue.inflight.flights.get? w.key).filter (fun flight => now < flight.deadline)
      else some ⟨(d.queue.current w.container w.imbalance.repair now).1 + UInt64.ofNat sent,
        now + ttl.totalNanos⟩ := by
  have hAttempt : attempt d.queue now evaluations w = (e.ofKind w.imbalance.repair).drop
      (min (d.queue.current w.container w.imbalance.repair now).1.toNat
        (e.ofKind w.imbalance.repair).length) := by
    rw [drop_min_length, attempt, wanted, hEvaluation, Option.elim_some, RepairQueue.inflightAt]
  rw [hAttempt, serve, hEvaluation]
  exact Inflight.get?_record_current _ _ _ _ now ttl

theorem inflightAt_serve_of_ne {v : Waiter} (hKey : v.key ≠ w.key) (t : Nat) :
    (serve now ttl evaluations d w).queue.inflightAt v.container v.imbalance.repair t =
      d.queue.inflightAt v.container v.imbalance.repair t :=
  Inflight.number_congr (get?_serve_of_ne now ttl evaluations d w hKey) t

end Serve

/-! ## The whole batch -/

section Batch

variable {now : Nat} {ttl : Duration} {evaluations : Table ContainerId Evaluation}

theorem flatMap_attempt_serve {d : Dispatch} {w : Waiter} {rest : List Waiter}
    (hKeys : ∀ v ∈ rest, v.key ≠ w.key) :
    rest.flatMap (attempt (serve now ttl evaluations d w).queue now evaluations) =
      rest.flatMap (attempt d.queue now evaluations) :=
  List.flatMap_congr fun v hv => by
    rw [attempt, attempt, inflightAt_serve_of_ne now ttl evaluations d w (hKeys v hv)]

/-- What is held back depends on what is in flight for the batch alone. -/
theorem heldBackIn_congr {q q' : RepairQueue} {batch : List Waiter}
    (h : ∀ w ∈ batch, q.inflightAt w.container w.imbalance.repair now =
      q'.inflightAt w.container w.imbalance.repair now) :
    heldBackIn q now evaluations batch = heldBackIn q' now evaluations batch := by
  induction batch with
  | nil => rfl
  | cons w rest ih =>
    rw [heldBackIn, heldBackIn, heldBack, heldBack, h w List.mem_cons_self,
      ih fun v hv => h v (List.mem_cons_of_mem _ hv)]

theorem heldBackIn_eq_foldr (q : RepairQueue) (batch : List Waiter) :
    heldBackIn q now evaluations batch =
      batch.foldr (fun w n => heldBack q now evaluations w + n) 0 := by
  induction batch with
  | nil => rfl
  | cons w rest ih => rw [heldBackIn, ih, List.foldr_cons]

theorem heldBackIn_eq_zero {q : RepairQueue} {batch : List Waiter}
    (hNone : ∀ w ∈ batch, heldBack q now evaluations w = 0) :
    heldBackIn q now evaluations batch = 0 := by
  induction batch with
  | nil => rfl
  | cons w rest ih =>
    rw [heldBackIn, hNone w List.mem_cons_self, ih fun v hv => hNone v (List.mem_cons_of_mem _ hv)]

variable (now ttl evaluations) in
/-- A batch sends its attempts as one list. -/
theorem repairAll_dispatches {batch : List Waiter} (hKeys : (batch.map Waiter.key).Nodup)
    (d : Dispatch) :
    let attempts := batch.flatMap (attempt d.queue now evaluations)
    let sent := d.outbox.sendAll attempts
    let done := d.repairAll now ttl evaluations batch
    done.outbox = sent.2 ∧ done.accepted = d.accepted ++ sent.1 ∧
      done.dropped = d.dropped + (attempts.length - sent.1.length) ∧
      done.suppressed = d.suppressed + heldBackIn d.queue now evaluations batch := by
  simp only [repairAll_eq_foldl]
  induction batch generalizing d with
  | nil => simp [heldBackIn]
  | cons w rest ih =>
    rw [List.map_cons, List.nodup_cons] at hKeys
    have hOthers : ∀ v ∈ rest, v.key ≠ w.key := fun v hv hSame =>
      hKeys.1 (hSame ▸ List.mem_map_of_mem hv)
    obtain ⟨hOutbox, hAccepted, hDropped, hSuppressed⟩ :=
      serve_dispatches now ttl evaluations d w
    obtain ⟨hOutboxRest, hAcceptedRest, hDroppedRest, hSuppressedRest⟩ :=
      ih hKeys.2 (serve now ttl evaluations d w)
    rw [flatMap_attempt_serve hOthers, hOutbox] at hOutboxRest hAcceptedRest hDroppedRest
    rw [heldBackIn_congr fun v hv => inflightAt_serve_of_ne now ttl evaluations d w (hOthers v hv) now,
      hSuppressed] at hSuppressedRest
    rw [hAccepted] at hAcceptedRest
    rw [hDropped] at hDroppedRest
    rw [List.foldl_cons, List.flatMap_cons, Outbox.sendAll_append, heldBackIn]
    refine ⟨hOutboxRest, ?_, ?_, ?_⟩
    · rw [hAcceptedRest, List.append_assoc]
    · have hFirst : (d.outbox.sendAll (attempt d.queue now evaluations w)).1.length ≤
          (attempt d.queue now evaluations w).length := List.length_take_le' _ _
      rw [hDroppedRest, List.length_append, List.length_append]
      have hRest : ((d.outbox.sendAll (attempt d.queue now evaluations w)).2.sendAll
          (rest.flatMap (attempt d.queue now evaluations))).1.length ≤
          (rest.flatMap (attempt d.queue now evaluations)).length := List.length_take_le' _ _
      omega
    · omega

theorem line_repairAll (d : Dispatch) (batch : List Waiter) :
    (d.repairAll now ttl evaluations batch).queue.line = d.queue.line ∧
      (d.repairAll now ttl evaluations batch).queue.closed = d.queue.closed := by
  rw [repairAll_eq_foldl]
  induction batch generalizing d with
  | nil => exact ⟨rfl, rfl⟩
  | cons w rest ih =>
    obtain ⟨hLine, hClosed⟩ := line_serve now ttl evaluations d w
    obtain ⟨hLineRest, hClosedRest⟩ := ih (serve now ttl evaluations d w)
    exact ⟨hLineRest.trans hLine, hClosedRest.trans hClosed⟩

theorem get?_repairAll_of_notMem {batch : List Waiter} {key : RepairKey}
    (hKey : ∀ w ∈ batch, key ≠ w.key) (d : Dispatch) :
    (d.repairAll now ttl evaluations batch).queue.inflight.flights.get? key =
      d.queue.inflight.flights.get? key := by
  rw [repairAll_eq_foldl]
  induction batch generalizing d with
  | nil => rfl
  | cons w rest ih =>
    have hRest : ∀ v ∈ rest, key ≠ v.key := fun v hv => hKey v (List.mem_cons_of_mem _ hv)
    rw [List.foldl_cons, ih hRest, get?_serve_of_ne _ _ _ _ _ (hKey w List.mem_cons_self)]

/-- A container that was not evaluated is passed over. -/
theorem get?_repairAll_of_unknown {key : RepairKey} (hUnknown : evaluations.get? key.major = none)
    (batch : List Waiter) (d : Dispatch) :
    (d.repairAll now ttl evaluations batch).queue.inflight.flights.get? key =
      d.queue.inflight.flights.get? key := by
  rw [repairAll_eq_foldl]
  induction batch generalizing d with
  | nil => rfl
  | cons w rest ih =>
    rw [List.foldl_cons, ih]
    by_cases hKey : key = w.key
    · have hPassed : evaluations.get? w.container = none := by
        rw [hKey] at hUnknown
        exact hUnknown
      rw [serve, hPassed]
    · exact get?_serve_of_ne _ _ _ _ _ hKey

variable (now ttl) in
/-- What flies for a waiter after a batch is told by what was accepted for it. -/
theorem get?_repairAll (hProper : Proper evaluations) {batch : List Waiter}
    (hKeys : (batch.map Waiter.key).Nodup) {w : Waiter} (hw : w ∈ batch) {e : Evaluation}
    (hEvaluation : evaluations.get? w.container = some e) (d : Dispatch) :
    (d.repairAll now ttl evaluations batch).queue.inflight.flights.get? w.key =
      let sent := d.outbox.sendAll (batch.flatMap (attempt d.queue now evaluations))
      let own := (sent.1.filter fun x => x.key = w.key).length
      if UInt64.ofNat own = 0 then
        (d.queue.inflight.flights.get? w.key).filter (fun flight => now < flight.deadline)
      else some ⟨(d.queue.current w.container w.imbalance.repair now).1 + UInt64.ofNat own,
        now + ttl.totalNanos⟩ := by
  induction batch generalizing d with
  | nil => cases hw
  | cons v rest ih =>
    rw [List.map_cons, List.nodup_cons] at hKeys
    have hOthers : ∀ u ∈ rest, u.key ≠ v.key := fun u hu hSame =>
      hKeys.1 (hSame ▸ List.mem_map_of_mem hu)
    have hOutbox := (serve_dispatches now ttl evaluations d v).1
    simp only [List.flatMap_cons, Outbox.sendAll_append, List.filter_append]
    rw [repairAll_eq_foldl, List.foldl_cons, ← repairAll_eq_foldl]
    rcases List.mem_cons.1 hw with rfl | hRest
    · -- The first waiter is served now, and what follows is for others.
      have hOwn : (d.outbox.sendAll (attempt d.queue now evaluations w)).1.filter
          (fun x => x.key = w.key) = (d.outbox.sendAll (attempt d.queue now evaluations w)).1 :=
        List.filter_eq_self.2 fun x hx =>
          List.filter_eq_self.1 (filter_key_attempt_self hProper d.queue now w) x
            (List.mem_of_mem_take hx)
      rw [get?_repairAll_of_notMem (fun u hu => (hOthers u hu).symm), get?_serve _ _ _ _ _ hEvaluation,
        hOwn, Outbox.filter_sendAll_eq_nil _
          (filter_key_flatMap_attempt_eq_nil hProper d.queue now hOthers), List.append_nil]
    · -- Serving another one first changes nothing for this waiter.
      have hNe : w.key ≠ v.key := hOthers w hRest
      have hFlight := get?_serve_of_ne now ttl evaluations d v hNe
      have hCurrent : ((serve now ttl evaluations d v).queue.current w.container
            w.imbalance.repair now).1 = (d.queue.current w.container w.imbalance.repair now).1 :=
        Inflight.current_fst_congr hFlight now
      rw [ih hKeys.2 hRest, hFlight, hCurrent, hOutbox, flatMap_attempt_serve hOthers,
        Outbox.filter_sendAll_eq_nil _ (filter_key_attempt_eq_nil hProper d.queue now hNe.symm),
        List.nil_append]

end Batch

end Dispatch

end ReplicaUpkeep
