import Mathlib.Data.List.DropRight
import Mathlib.Data.List.Induction
import Mathlib.Data.List.Infix
import ReplicaUpkeep.Proofs.Queue.Operations

/-!
# A plain tally of repairs in flight

A repair queue keeps one flight for each key and drops it late: a flight that has lapsed stays in the table
until somebody asks for it or records to it, and trimming does not look at the clock at all.  Here the
same is told by a tally that drops nothing.  It takes what was recorded and trimmed for a key since the key
was last cleared, and folds it into one number and the moment at which that number lapses.

As long as the clock does not run back, a table and a tally tell the same.  They need not agree in what they
hold, since a flight that was dropped is one that the tally still has as lapsed; `Mirrors` says which
differences there can be, and that later moments cannot tell them.

Two limits of the machine bound this.  Counts are words, so adding may wrap; where no sum that the tally
comes through needs more than a word, it does not.  And a record whose deadline the clock cannot show leaves
no table that could tell anything.
-/

namespace ReplicaUpkeep

namespace RepairQueue

namespace Operation

/-- Does the operation ask how many repairs count? -/
def isAsk : Operation → Bool
  | .ask _ _ _ => true
  | _ => false

/-- Does the operation remove whatever is in flight under the key? -/
def clears (key : RepairKey) : Operation → Bool
  | .trim id kind needed => needed = 0 && key = ⟨id, kind⟩
  | .call (.forget id) => key.major = id
  | .call .close => true
  | _ => false

/-- When the operation takes place, if it is one that looks at the clock. -/
def moment? : Operation → Option Nat
  | .ask _ _ now | .record _ _ _ now _ => some now
  | _ => none

end Operation

/-- The clock does not run back during the operations, nor from them to a moment. -/
def Chronological (operations : List Operation) (now : Nat) : Prop :=
  (operations.filterMap Operation.moment? ++ [now]).Pairwise (· ≤ ·)

instance (operations : List Operation) (now : Nat) : Decidable (Chronological operations now) :=
  inferInstanceAs (Decidable (List.Pairwise _ _))

/-- The operations since a key was last cleared. -/
def sinceCleared (key : RepairKey) (operations : List Operation) : List Operation :=
  operations.rtakeWhile fun op => !op.clears key

/-- A number, and the moment from which on it counts no more, if anything was recorded. -/
structure Tally where
  value : Nat
  deadline? : Option Nat
  deriving DecidableEq, Repr

namespace Tally

/-- The tally in which nothing was recorded. -/
def zero : Tally := ⟨0, none⟩

/-- How many repairs count at a moment: none from the deadline on, and none if none were recorded. -/
def number (t : Tally) (now : Nat) : Nat :=
  match t.deadline? with
  | none => 0
  | some deadline => if deadline ≤ now then 0 else t.value

/-- The tally after an operation that does not clear the key.  A record replaces what has lapsed and adds
to what has not; sending none is no record. -/
def after (add : Nat → Nat → Nat) (key : RepairKey) (t : Tally) : Operation → Tally
  | .record id kind count now ttl =>
    if count ≠ 0 ∧ key = ⟨id, kind⟩ then
      { value := if t.deadline?.any (· ≤ now) then count.toNat else add t.value count.toNat
        deadline? := some (now + ttl.totalNanos) }
    else t
  | .trim id kind needed => if key = ⟨id, kind⟩ then { t with value := min t.value needed } else t
  | _ => t

end Tally

/-- The tally of a key: what happened since it was last cleared, folded from zero. -/
def tally (add : Nat → Nat → Nat) (key : RepairKey) (operations : List Operation) : Tally :=
  (sinceCleared key operations).foldl (Tally.after add key) .zero

/-- The sum of two counts as a machine word. -/
def addWords (a b : Nat) : Nat :=
  (a + b) % UInt64.size

/-- No number that the tally of a key comes through needs more than a machine word. -/
def Fits (key : RepairKey) (operations : List Operation) : Prop :=
  ∀ past ∈ (sinceCleared key operations).inits,
    (past.foldl (Tally.after (· + ·) key) .zero).value < UInt64.size

instance (key : RepairKey) (operations : List Operation) : Decidable (Fits key operations) :=
  inferInstanceAs (Decidable (∀ past ∈ _, _ < _))

/-! ## One more operation -/

section Concat

variable (key : RepairKey) (operations : List Operation) (op : Operation)

theorem sinceCleared_concat :
    sinceCleared key (operations ++ [op]) =
      if op.clears key then [] else sinceCleared key operations ++ [op] := by
  unfold sinceCleared
  cases hClears : op.clears key with
  | true => exact List.rtakeWhile_concat_neg _ _ _ (by simp [hClears])
  | false => exact List.rtakeWhile_concat_pos _ _ _ (by simp [hClears])

theorem tally_concat (add : Nat → Nat → Nat) :
    tally add key (operations ++ [op]) =
      if op.clears key then .zero else (tally add key operations).after add key op := by
  rw [tally, sinceCleared_concat]
  cases op.clears key with
  | true => rfl
  | false => exact List.foldl_concat _ _ _ _

variable {operations op}

/-- Before an operation the clock had not run back either, up to the operation or, if that does not look at
the clock, up to the moment after it. -/
theorem Chronological.of_concat {now : Nat} (h : Chronological (operations ++ [op]) now) :
    Chronological operations (op.moment?.getD now) ∧ op.moment?.getD now ≤ now := by
  unfold Chronological at h ⊢
  rw [List.filterMap_append] at h
  cases hMoment : op.moment? with
  | none =>
    rw [List.filterMap_cons_none hMoment, List.filterMap_nil, List.append_nil] at h
    exact ⟨h, Nat.le_refl now⟩
  | some moment =>
    rw [List.filterMap_cons_some hMoment, List.filterMap_nil] at h
    obtain ⟨hBefore, -, hLast⟩ := List.pairwise_append.1 h
    exact ⟨hBefore, hLast moment (by simp) now (by simp)⟩

end Concat

/-! ## What the table holds and what the tally tells -/

/-- The ways in which a table and a tally can stand for the same from a moment on. -/
inductive Mirrors (now : Nat) : Option Flight → Tally → Prop where
  | nothing : Mirrors now none .zero
  /-- The flight was dropped, and the tally still has it. -/
  | lapsed {value deadline : Nat} (h : deadline ≤ now) : Mirrors now none ⟨value, some deadline⟩
  | flying (flight : Flight) : Mirrors now (some flight) ⟨flight.count.toNat, some flight.deadline⟩

namespace Mirrors

variable {now : Nat} {flight : Option Flight} {t : Tally} {key : RepairKey} {op : Operation}

theorem mono (h : Mirrors now flight t) {later : Nat} (hLater : now ≤ later) :
    Mirrors later flight t := by
  cases h with
  | nothing => exact .nothing
  | lapsed hLapsed => exact .lapsed (Nat.le_trans hLapsed hLater)
  | flying flight => exact .flying flight

/-- A cleared key has no flight. -/
theorem of_clears (hClears : op.clears key = true) : Mirrors now (op.flight key flight) .zero := by
  have hNone : op.flight key flight = none := by
    cases op with
    | call call =>
      cases call with
      | forget id => exact if_pos (of_decide_eq_true hClears)
      | close => rfl
      | _ => cases hClears
    | trim id kind needed =>
      obtain ⟨hNeeded, hKey⟩ := Bool.and_eq_true_iff.1 hClears
      rw [Operation.flight, if_pos (of_decide_eq_true hKey), of_decide_eq_true hNeeded,
        Inflight.cap_zero]
    | _ => cases hClears
  exact hNone ▸ .nothing

theorem ask (h : Mirrors now flight t) :
    Mirrors now (flight.filter fun flight => now < flight.deadline) t := by
  cases h with
  | nothing => exact .nothing
  | lapsed hLapsed => exact .lapsed hLapsed
  | flying flight =>
    by_cases hTime : now < flight.deadline
    · rw [Option.filter_some_pos (by simpa using hTime)]
      exact .flying flight
    · rw [Option.filter_some_neg (by simpa using hTime)]
      exact .lapsed (Nat.le_of_not_lt hTime)

/-- What a record adds to, and what is replaced by it, is the same for both. -/
theorem record (h : Mirrors now flight t) (count : UInt64) :
    (flight.elim 0 (Inflight.countAt · now) + count).toNat =
      if t.deadline?.any (· ≤ now) then count.toNat else addWords t.value count.toNat := by
  cases h with
  | nothing =>
    show ((0 : UInt64) + count).toNat = (0 + count.toNat) % UInt64.size
    rw [UInt64.toNat_add]
    rfl
  | lapsed hLapsed => simp [hLapsed]
  | flying flight =>
    by_cases hTime : now < flight.deadline
    · have hKept : ¬ flight.deadline ≤ now := Nat.not_le_of_lt hTime
      simp only [Option.elim_some, Inflight.countAt, hTime, if_true, Option.any_some, hKept,
        decide_false, Bool.false_eq_true, if_false, addWords]
      exact UInt64.toNat_add _ _
    · simp [Inflight.countAt, hTime, Nat.le_of_not_lt hTime]

theorem trim (h : Mirrors now flight t) {needed : Nat} (hNeeded : needed ≠ 0) :
    Mirrors now (Inflight.cap needed flight) { t with value := min t.value needed } := by
  rw [Inflight.cap, if_neg hNeeded]
  cases h with
  | nothing =>
    rw [Option.map_none, Tally.zero, Nat.zero_min]
    exact .nothing
  | lapsed hLapsed => exact .lapsed hLapsed
  | flying flight =>
    rw [Option.map_some]
    by_cases hMore : needed < flight.count.toNat
    · have hWord : needed < 2 ^ 64 := Nat.lt_trans hMore flight.count.toNat_lt
      have hCount : (UInt64.ofNat needed).toNat = min flight.count.toNat needed := by
        rw [UInt64.toNat_ofNat', Nat.mod_eq_of_lt hWord, Nat.min_eq_right (Nat.le_of_lt hMore)]
      rw [if_pos hMore, ← hCount]
      exact .flying { flight with count := UInt64.ofNat needed }
    · rw [if_neg hMore, Nat.min_eq_left (Nat.le_of_not_lt hMore)]
      exact .flying flight

/-- One operation keeps the tally beside the table. -/
theorem after (h : Mirrors now flight t) (hKept : op.clears key = false)
    (hMoment : op.moment?.getD now = now) :
    Mirrors now (op.flight key flight) (t.after addWords key op) := by
  cases op with
  | call call =>
    cases call with
    | forget id =>
      have hOther : ¬ key.major = id := of_decide_eq_false hKept
      rw [Operation.flight, if_neg hOther]
      exact h
    | close => cases hKept
    | _ => exact h
  | ask id kind moment =>
    obtain rfl : moment = now := hMoment
    rw [Operation.flight]
    split
    · exact h.ask
    · exact h
  | record id kind count moment ttl =>
    obtain rfl : moment = now := hMoment
    rw [Operation.flight, Tally.after, ← h.record count]
    split
    · exact .flying _
    · exact h
  | trim id kind needed =>
    rw [Operation.flight, Tally.after]
    split
    · rename_i hKey
      have hNeeded : needed ≠ 0 := fun hZero => by simp [Operation.clears, hZero, hKey] at hKept
      exact h.trim hNeeded
    · exact h

/-- Table and tally tell the same number. -/
theorem number_eq {f : Inflight} {id : ContainerId} {kind : DirectiveKind}
    (h : Mirrors now (f.flights.get? ⟨id, kind⟩) t) : f.number id kind now = t.number now := by
  rw [Inflight.number_eq]
  generalize f.flights.get? ⟨id, kind⟩ = flight at h ⊢
  cases h with
  | nothing => rfl
  | lapsed hLapsed => simp [Tally.number, hLapsed]
  | flying flight =>
    by_cases hTime : now < flight.deadline
    · simp [Tally.number, hTime, Nat.not_le_of_lt hTime]
    · simp [Tally.number, hTime, Nat.le_of_not_lt hTime]

end Mirrors

/-! ## A whole run -/

/-- After operations in turn the tally stands for the table. -/
theorem mirrors_performAll (key : RepairKey) (operations : List Operation) {now : Nat}
    (h : Chronological operations now) :
    Mirrors now ((empty.performAll operations).inflight.flights.get? key)
      (tally addWords key operations) := by
  induction operations using List.reverseRecOn generalizing now with
  | nil => exact .nothing
  | append_singleton operations op ih =>
    obtain ⟨hBefore, hLater⟩ := h.of_concat
    rw [performAll_concat, get?_perform, tally_concat]
    cases hClears : op.clears key with
    | true => exact .of_clears hClears
    | false =>
      -- The operation finds both as they stand at its own moment.
      have hMoment : op.moment?.getD (op.moment?.getD now) = op.moment?.getD now := by
        cases op.moment? <;> rfl
      exact ((ih hBefore).after hClears hMoment).mono hLater

/-- A number that fits into a word is the same when it is added as a word. -/
theorem Tally.after_of_fits {key : RepairKey} {t : Tally} {op : Operation}
    (hFits : (t.after (· + ·) key op).value < UInt64.size) :
    t.after (· + ·) key op = t.after addWords key op := by
  cases op with
  | record id kind count now ttl =>
    simp only [after] at hFits ⊢
    by_cases hOwn : count ≠ 0 ∧ key = ⟨id, kind⟩
    · rw [if_pos hOwn] at hFits
      rw [if_pos hOwn, if_pos hOwn]
      by_cases hLapsed : t.deadline?.any (· ≤ now) = true
      · rw [if_pos hLapsed, if_pos hLapsed]
      · have hSum : addWords t.value count.toNat = t.value + count.toNat :=
          Nat.mod_eq_of_lt (by simpa only [if_neg hLapsed] using hFits)
        rw [if_neg hLapsed, if_neg hLapsed, hSum]
    · rw [if_neg hOwn, if_neg hOwn]
  | _ => rfl

/-- Sums that fit into words are sums. -/
theorem tally_of_fits {key : RepairKey} {operations : List Operation} (hFits : Fits key operations) :
    tally (· + ·) key operations = tally addWords key operations := by
  unfold Fits at hFits
  unfold tally
  generalize sinceCleared key operations = since at hFits ⊢
  induction since using List.reverseRecOn with
  | nil => rfl
  | append_singleton past op ih =>
    have hSame := ih fun earlier hEarlier => hFits earlier <| (List.mem_inits _ _).2 <|
      ((List.mem_inits _ _).1 hEarlier).trans (List.prefix_append _ _)
    have hLast := hFits _ ((List.mem_inits _ _).2 List.prefix_rfl)
    rw [List.foldl_concat] at hLast
    rw [List.foldl_concat, List.foldl_concat, Tally.after_of_fits hLast, hSame]

/-- Asking sets no deadline. -/
theorem forall_inRange_filter_isAsk (operations : List Operation) :
    (∀ op ∈ operations.filter (fun op => !op.isAsk), op.InRange) ↔ ∀ op ∈ operations, op.InRange := by
  simp only [List.mem_filter, Bool.not_eq_true', and_imp]
  refine forall₂_congr fun op _ => ⟨fun h => ?_, fun h _ => h⟩
  cases op with
  | ask id kind now => trivial
  | _ => exact h rfl

/-- Asking is no part of the tally. -/
theorem tally_filter_isAsk (add : Nat → Nat → Nat) (key : RepairKey) (operations : List Operation) :
    tally add key (operations.filter fun op => !op.isAsk) = tally add key operations := by
  induction operations using List.reverseRecOn with
  | nil => rfl
  | append_singleton operations op ih =>
    rw [List.filter_append, tally_concat]
    cases op with
    | ask id kind now =>
      rw [List.filter_cons_of_neg (by simp [Operation.isAsk]), List.filter_nil, List.append_nil, ih]
      rfl
    | _ =>
      rw [List.filter_cons_of_pos (by rfl), List.filter_nil, tally_concat, ih]

end RepairQueue

/-- As long as the clock does not run back and can show every deadline, the question how many repairs count is
answered by the plain tally: none if nothing was recorded since the key was last cleared or if the latest
record has lapsed, and otherwise what records and trims since then fold to.  Counts are added as machine
words; where no sum of the tally needs more than a word, they are simply added.  And whoever asks in
between, for this key or another, changes no later answer, be the deadlines what they may. -/
theorem inflight_answers_as_tally (operations : List RepairQueue.Operation) (id : ContainerId)
    (kind : DirectiveKind) (now : Nat) (hChronological : RepairQueue.Chronological operations now) :
    let key : RepairKey := ⟨id, kind⟩
    let answer := RepairQueue.answer operations id kind now
    ((∀ op ∈ operations, op.InRange) →
        answer = .ok ((RepairQueue.tally RepairQueue.addWords key operations).number now) ∧
          (RepairQueue.Fits key operations →
            answer = .ok ((RepairQueue.tally (· + ·) key operations).number now))) ∧
      ∀ others, RepairQueue.Chronological others now →
        others.filter (fun op => !op.isAsk) = operations.filter (fun op => !op.isAsk) →
          RepairQueue.answer others id kind now = answer := by
  intro key answer
  have hNumber : ∀ others, RepairQueue.Chronological others now →
      (RepairQueue.empty.performAll others).inflightAt id kind now =
        (RepairQueue.tally RepairQueue.addWords key others).number now :=
    fun others hOthers => (RepairQueue.mirrors_performAll key others hOthers).number_eq
  refine ⟨fun hRange => ?_, fun others hOthers hSame => ?_⟩
  · have hWords : answer =
        .ok ((RepairQueue.tally RepairQueue.addWords key operations).number now) := by
      rw [← hNumber operations hChronological]
      exact (RepairQueue.answer_eq operations id kind now).trans (if_pos hRange)
    refine ⟨hWords, fun hFits => ?_⟩
    rw [RepairQueue.tally_of_fits hFits]
    exact hWords
  · -- Both break down at the same records, and otherwise both tell the same tally.
    have hBreak : (∀ op ∈ others, op.InRange) ↔ ∀ op ∈ operations, op.InRange := by
      rw [← RepairQueue.forall_inRange_filter_isAsk, hSame, RepairQueue.forall_inRange_filter_isAsk]
    have hTold : (RepairQueue.empty.performAll others).inflightAt id kind now =
        (RepairQueue.empty.performAll operations).inflightAt id kind now := by
      rw [hNumber others hOthers, hNumber operations hChronological,
        ← RepairQueue.tally_filter_isAsk, hSame, RepairQueue.tally_filter_isAsk]
    show _ = RepairQueue.answer operations id kind now
    rw [RepairQueue.answer_eq, RepairQueue.answer_eq, hTold]
    simp only [hBreak]

/-- Three copies are recorded and trimmed to two; a record at their very deadline replaces them, and one before
the next deadline adds to that.  Asking at every step in between changes nothing. -/
theorem inflight_answers_as_tally_of_three_records :
    let ttl : Duration := ⟨0, 10, by decide⟩
    let key : RepairKey := ⟨⟨1⟩, .replicate⟩
    let operations : List RepairQueue.Operation :=
      [.record ⟨1⟩ .replicate 3 0 ttl, .trim ⟨1⟩ .replicate 2, .record ⟨2⟩ .replicate 7 5 ttl,
        .record ⟨1⟩ .replicate 4 10 ttl, .record ⟨1⟩ .replicate 1 12 ttl]
    let others : List RepairQueue.Operation :=
      [.record ⟨1⟩ .replicate 3 0 ttl, .ask ⟨1⟩ .replicate 4, .trim ⟨1⟩ .replicate 2,
        .record ⟨2⟩ .replicate 7 5 ttl, .ask ⟨1⟩ .replicate 10, .record ⟨1⟩ .replicate 4 10 ttl,
        .record ⟨1⟩ .replicate 1 12 ttl, .ask ⟨2⟩ .replicate 15]
    RepairQueue.Chronological operations 21 ∧ RepairQueue.Chronological others 21 ∧
      (∀ op ∈ operations, op.InRange) ∧ RepairQueue.Fits key operations ∧
      RepairQueue.answer operations ⟨1⟩ .replicate 21 = .ok 5 ∧
        RepairQueue.answer others ⟨1⟩ .replicate 21 = .ok 5 := by
  intro ttl key operations others
  have hOperations : RepairQueue.Chronological operations 21 := by decide
  have hOthers : RepairQueue.Chronological others 21 := by decide
  have hRange : ∀ op ∈ operations, op.InRange := by decide +kernel
  have hFits : RepairQueue.Fits key operations := by decide +kernel
  obtain ⟨hTold, hAlike⟩ := inflight_answers_as_tally operations ⟨1⟩ .replicate 21 hOperations
  have hFive : RepairQueue.answer operations ⟨1⟩ .replicate 21 = .ok 5 :=
    ((hTold hRange).2 hFits).trans (by decide +kernel)
  exact ⟨hOperations, hOthers, hRange, hFits, hFive, (hAlike others hOthers rfl).trans hFive⟩

/-- Both limits are real ones.  All that a word can count and two more leave an answer of one, since words wrap
around.  And one copy recorded with a deadline that the clock cannot show leaves no answer at all, though the
tally has it as counting. -/
theorem tally_missed_beyond_limits :
    let ttl : Duration := ⟨0, 10, by decide⟩
    let endless : Duration := .ofSeconds 18446744073709551615
    let key : RepairKey := ⟨⟨1⟩, .replicate⟩
    let many : List RepairQueue.Operation :=
      [.record ⟨1⟩ .replicate 18446744073709551615 0 ttl, .record ⟨1⟩ .replicate 2 0 ttl]
    let late : List RepairQueue.Operation := [.record ⟨1⟩ .replicate 1 0 endless]
    (RepairQueue.Chronological many 5 ∧
        (RepairQueue.tally (· + ·) key many).number 5 = 18446744073709551617 ∧
        RepairQueue.answer many ⟨1⟩ .replicate 5 = .ok 1) ∧
      RepairQueue.Chronological late 5 ∧
        (RepairQueue.tally (· + ·) key late).number 5 = 1 ∧
        RepairQueue.answer late ⟨1⟩ .replicate 5 = .error RepairQueue.poisoned := by
  intro ttl endless key many late
  have hLate : ¬ RepairQueue.Operation.InRange (.record ⟨1⟩ .replicate 1 0 endless) := by decide
  exact ⟨⟨by decide, by decide +kernel, by decide +kernel⟩, by decide, by decide +kernel,
    RepairQueue.answer_of_not_inRange hLate [] [] ⟨1⟩ .replicate 5⟩

end ReplicaUpkeep
