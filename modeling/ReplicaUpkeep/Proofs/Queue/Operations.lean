import ReplicaUpkeep.Proofs.Queue.Inflight
import ReplicaUpkeep.Proofs.Queue.Roster

/-!
# Operations on a repair queue

A queue lives through operations in any order: calls on its line, and what is recorded, trimmed and asked
of its repairs in flight.  Two facts carry everything that is said of such a life.  The line stays sound.
And what is in flight under a key changes by itself: an operation makes of it something that depends on
nothing else in the queue.

Of all operations only a record can break down, namely at a deadline that the clock cannot show.  The queue
is then lost: whatever is done afterwards, nobody gets an answer from it any more.
-/

namespace ReplicaUpkeep

namespace RepairQueue

/-- An operation on a repair queue: a call on its line, or one on what is in flight. -/
inductive Operation where
  | call (call : LineCall)
  | ask (id : ContainerId) (kind : DirectiveKind) (now : Nat)
  | record (id : ContainerId) (kind : DirectiveKind) (count : UInt64) (now : Nat) (ttl : Duration)
  | trim (id : ContainerId) (kind : DirectiveKind) (needed : Nat)

/-- The queue after an operation. -/
def perform (q : RepairQueue) : Operation → RepairQueue
  | .call call => (q.handle call).2
  | .ask id kind now => (q.current id kind now).2
  | .record id kind count now ttl => q.record id kind count now ttl
  | .trim id kind needed => q.trim id kind needed

/-- The queue after operations in turn. -/
def performAll (q : RepairQueue) (operations : List Operation) : RepairQueue :=
  operations.foldl perform q

theorem sound_performAll {q : RepairQueue} (h : q.line.Sound) (operations : List Operation) :
    (q.performAll operations).line.Sound := by
  induction operations generalizing q with
  | nil => exact h
  | cons op rest ih =>
    have hStep : (q.perform op).line.Sound := by
      cases op with
      | call call => exact sound_handle h call
      | _ => exact h
    exact ih hStep

theorem performAll_concat (q : RepairQueue) (operations : List Operation) (op : Operation) :
    q.performAll (operations ++ [op]) = (q.performAll operations).perform op :=
  List.foldl_concat _ _ _ _

/-- What an operation makes of a flight under a key. -/
def Operation.flight (op : Operation) (key : RepairKey) (flight : Option Flight) : Option Flight :=
  match op with
  | .call (.forget id) => if key.major = id then none else flight
  | .call .close => none
  | .call _ => flight
  | .ask id kind now =>
    if key = ⟨id, kind⟩ then flight.filter (fun flight => now < flight.deadline) else flight
  | .record id kind count now ttl =>
    if count ≠ 0 ∧ key = ⟨id, kind⟩ then
      some ⟨flight.elim 0 (Inflight.countAt · now) + count, now + ttl.totalNanos⟩
    else flight
  | .trim id kind needed => if key = ⟨id, kind⟩ then Inflight.cap needed flight else flight

/-- An operation changes each flight by itself. -/
theorem get?_perform (q : RepairQueue) (op : Operation) (key : RepairKey) :
    (q.perform op).inflight.flights.get? key = op.flight key (q.inflight.flights.get? key) := by
  cases op with
  | call call =>
    cases call with
    | enqueue id i priority =>
      show (q.handle (.enqueue id i priority)).2.inflight.flights.get? key = _
      cases hClosed : q.closed <;> simp [handle, enqueue, hClosed, Operation.flight]
    | forget id => exact q.inflight.get?_forget id key
    | close => exact Inflight.get?_empty key
    | _ => rfl
  | ask id kind now => exact q.inflight.get?_current id kind key now
  | record id kind count now ttl =>
    refine (q.inflight.get?_record id kind key count now ttl).trans ?_
    rw [Operation.flight, Inflight.current_fst]
    by_cases hOwn : count ≠ 0 ∧ key = ⟨id, kind⟩
    · rw [if_pos hOwn, if_pos hOwn, hOwn.2]
    · rw [if_neg hOwn, if_neg hOwn]
  | trim id kind needed => exact q.inflight.get?_trim id kind key needed

/-! ## Operations that break down -/

/-- Can the clock show the deadline that an operation sets, if it sets one? -/
def Operation.InRange : Operation → Prop
  | .record _ _ count now ttl => count = 0 ∨ Inflight.InRange now ttl
  | _ => True

instance (op : Operation) : Decidable op.InRange :=
  match op with
  | .record _ _ _ _ _ => inferInstanceAs (Decidable (_ ∨ _))
  | .call _ | .ask _ _ _ | .trim _ _ _ => .isTrue trivial

/-- The queue after an operation, if that comes to its end. -/
def perform? (q : RepairQueue) : Operation → Option RepairQueue
  | .record id kind count now ttl => q.record? id kind count.toNat now ttl
  | op => some (q.perform op)

/-- The queue after operations in turn, if all of them come to their ends. -/
def performAll? (q : RepairQueue) (operations : List Operation) : Option RepairQueue :=
  operations.foldlM perform? q

/-- What a queue answers after operations in turn to the question how many repairs count.  One that broke down
did so with the queue in hand. -/
def answer (operations : List Operation) (id : ContainerId) (kind : DirectiveKind) (now : Nat) :
    Except Error Nat :=
  match empty.performAll? operations with
  | none => .error poisoned
  | some q => .ok (q.inflightAt id kind now)

theorem perform?_eq (q : RepairQueue) (op : Operation) :
    q.perform? op = if op.InRange then some (q.perform op) else none := by
  cases op with
  | record id kind count now ttl =>
    have hNothing : count.toNat = 0 ↔ count = 0 := by
      rw [← UInt64.toNat_inj]
      rfl
    simp only [perform?, record?, perform, Operation.InRange, hNothing, UInt64.ofNat_toNat]
    rfl
  | _ => exact (if_pos trivial).symm

/-- Operations in turn come to their end exactly if every deadline among them can be shown. -/
theorem performAll?_eq (q : RepairQueue) (operations : List Operation) :
    q.performAll? operations =
      if ∀ op ∈ operations, op.InRange then some (q.performAll operations) else none := by
  induction operations generalizing q with
  | nil => rfl
  | cons op rest ih =>
    have hStep : q.performAll? (op :: rest) = (q.perform? op).bind (performAll? · rest) := rfl
    have hAll : q.performAll (op :: rest) = (q.perform op).performAll rest := rfl
    rw [hStep, hAll, perform?_eq]
    simp only [List.forall_mem_cons]
    by_cases hOp : op.InRange
    · simp [hOp, ih]
    · simp [hOp]

theorem answer_eq (operations : List Operation) (id : ContainerId) (kind : DirectiveKind) (now : Nat) :
    answer operations id kind now =
      if ∀ op ∈ operations, op.InRange then .ok ((empty.performAll operations).inflightAt id kind now)
      else .error poisoned := by
  rw [answer, performAll?_eq]
  by_cases hAll : ∀ op ∈ operations, op.InRange
  · simp only [if_pos hAll]
  · simp only [if_neg hAll]

/-- A record whose deadline the clock cannot show breaks the queue for good: whatever was done before it and
is done after it, every question is answered with an error. -/
theorem answer_of_not_inRange {op : Operation} (hOp : ¬ op.InRange) (before after : List Operation)
    (id : ContainerId) (kind : DirectiveKind) (now : Nat) :
    answer (before ++ op :: after) id kind now = .error poisoned := by
  rw [answer_eq, if_neg]
  exact fun hAll => hOp (hAll op (List.mem_append_right _ List.mem_cons_self))

end RepairQueue

end ReplicaUpkeep
