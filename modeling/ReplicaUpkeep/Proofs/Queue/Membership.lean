import ReplicaUpkeep.Proofs.Queue.Settling

/-!
# Who waits after an evaluation

An evaluation decides about its own container alone, and decides afresh: whatever stood in the line
before, the container then waits with an imbalance exactly if it needs repairs for it.  Since nothing
needs copies and deletes at once, a line in which nobody waits with both imbalances stays such a line.
Everybody else waits on, in the same order.
-/

namespace ReplicaUpkeep

/-- One who queues up is the only change to the list. -/
theorem Waiter.filter_queueUp {l : List Waiter}
    (hOrdered : l.Pairwise fun v w => v.urgency ≤ w.urgency) {w : Waiter} {p : Waiter → Bool}
    (hw : p w = false) : (w.queueUp l).filter p = l.filter p := by
  have hSplit : l.filter (fun v => v.urgency ≤ w.urgency) ++
      l.filter (fun v => w.urgency < v.urgency) = l := by
    induction l with
    | nil => rfl
    | cons v rest ih =>
      rw [List.pairwise_cons] at hOrdered
      by_cases hBefore : v.urgency ≤ w.urgency
      · have hNot : ¬ w.urgency < v.urgency := Std.not_lt.2 hBefore
        simp [hBefore, hNot, ih hOrdered.2]
      · -- The first behind the newcomer has everybody else behind it.
        have hAhead : ∀ u ∈ rest, w.urgency < u.urgency := fun u hu => by
          have hBehind := hOrdered.1 u hu
          grind
        have hNone : rest.filter (fun u => u.urgency ≤ w.urgency) = [] :=
          List.filter_eq_nil_iff.2 fun u hu => by simpa using Std.not_le.2 (hAhead u hu)
        have hAll : rest.filter (fun u => w.urgency < u.urgency) = rest :=
          List.filter_eq_self.2 fun u hu => by simpa using hAhead u hu
        simp [hBefore, Std.not_le.1 hBefore, hNone, hAll]
  calc (w.queueUp l).filter p
    _ = (l.filter (fun v => v.urgency ≤ w.urgency) ++
          l.filter (fun v => w.urgency < v.urgency)).filter p := by
        rw [queueUp, List.filter_append, List.filter_append, List.filter_cons, hw,
          if_neg Bool.false_ne_true]
    _ = l.filter p := by rw [hSplit]

namespace WaitingLine

/-! ## Joining and leaving -/

theorem contains_join (l : WaitingLine) (id : ContainerId) (i : Imbalance) (priority : UInt32)
    (id' : ContainerId) (i' : Imbalance) :
    (l.join id i priority).2.contains id' i' =
      if id' = id ∧ i' = i then true else l.contains id' i' := by
  unfold join
  split
  · rename_i hWaits
    split
    · rename_i hSame
      rw [hSame.1, hSame.2]
      exact hWaits
    · rfl
  · simp only [contains, Table.contains, Table.get?_insert, OrderedPair.mk.injEq]
    split <;> rfl

theorem contains_leave (l : WaitingLine) (id : ContainerId) (i : Imbalance) (id' : ContainerId)
    (i' : Imbalance) :
    (l.leave id i).2.contains id' i' =
      if id' = id ∧ i' = i then false else l.contains id' i' := by
  unfold leave
  split
  · rename_i hNone
    split
    · rename_i hSame
      simp [contains, Table.contains, hSame.1, hSame.2, hNone]
    · rfl
  · simp only [contains, Table.contains, Table.get?_erase, OrderedPair.mk.injEq]
    split <;> rfl

theorem contains_align (l : WaitingLine) (e : Evaluation) (i : Imbalance) (id : ContainerId)
    (i' : Imbalance) :
    (l.align e i).contains id i' =
      if id = e.id ∧ i' = i then decide (0 < e.needed i) else l.contains id i' := by
  cases hWaiter : e.waiter?.filter (fun w => w.imbalance = i) with
  | none =>
    have hNot : ¬ 0 < e.needed i := by
      rw [e.needed_pos_iff i]
      rintro ⟨w, hw, rfl⟩
      simp [hw, Option.filter] at hWaiter
    simp only [align, hWaiter, contains_leave, decide_eq_false hNot]
  | some w =>
    obtain ⟨hw, hImbalance⟩ := Option.filter_eq_some_iff.1 hWaiter
    have hImbalance : w.imbalance = i := of_decide_eq_true hImbalance
    have hNeeded : 0 < e.needed i := (e.needed_pos_iff i).2 ⟨w, hw, hImbalance⟩
    simp only [align, hWaiter, contains_join, decide_eq_true hNeeded, hImbalance,
      Evaluation.container_of_waiter? hw]

/-- After an evaluation its container waits with what it needs repairs for, and nothing else changed. -/
theorem contains_follow (l : WaitingLine) (e : Evaluation) (id : ContainerId) (i : Imbalance) :
    (l.follow e).contains id i =
      if id = e.id then decide (0 < e.needed i) else l.contains id i := by
  rw [follow, contains_align, contains_align]
  cases i <;> by_cases hId : id = e.id <;> simp [hId]

/-! ## Everybody else -/

theorem toList_align_of_ne {l : WaitingLine} (h : l.Sound) (e : Evaluation) (i : Imbalance) :
    (l.align e i).toList.filter (fun w => w.container ≠ e.id) =
      l.toList.filter (fun w => w.container ≠ e.id) := by
  cases hWaiter : e.waiter?.filter (fun w => w.imbalance = i) with
  | none =>
    simp only [align, hWaiter]
    rw [toList_leave h, List.filter_filter]
    refine List.filter_congr fun w _ => ?_
    by_cases hOwn : w.container = e.id <;> simp [Waiter.member, hOwn]
  | some w =>
    have hOwn : w.container = e.id :=
      Evaluation.container_of_waiter? (Option.filter_eq_some_iff.1 hWaiter).1
    simp only [align, hWaiter]
    cases hWaits : l.contains w.container w.imbalance with
    | true => rw [join_eq_self hWaits]
    | false => rw [toList_join h hWaits, Waiter.filter_queueUp l.toList_ordered (by simp [hOwn])]

theorem toList_follow_of_ne {l : WaitingLine} (h : l.Sound) (e : Evaluation) :
    (l.follow e).toList.filter (fun w => w.container ≠ e.id) =
      l.toList.filter (fun w => w.container ≠ e.id) := by
  rw [follow, toList_align_of_ne (sound_align h e _), toList_align_of_ne h]

/-! ## One imbalance each -/

/-- Nobody waits with both imbalances. -/
def Exclusive (l : WaitingLine) : Prop :=
  ∀ id, ¬ (l.contains id .shortage = true ∧ l.contains id .surplus = true)

theorem exclusive_of_nobody {l : WaitingLine} (h : l.Sound) (hNobody : l.toList = []) :
    l.Exclusive := by
  rintro id ⟨hShort, -⟩
  obtain ⟨w, hw, -⟩ := (contains_iff h id .shortage).1 hShort
  rw [hNobody] at hw
  cases hw

theorem Exclusive.follow {l : WaitingLine} (h : l.Exclusive) (e : Evaluation) :
    (l.follow e).Exclusive := by
  intro id hBoth
  simp only [contains_follow] at hBoth
  split at hBoth
  · -- Both needs would be those of one waiter.
    simp only [decide_eq_true_eq, Evaluation.needed_pos_iff] at hBoth
    obtain ⟨⟨v, hv, hShort⟩, w, hw, hMore⟩ := hBoth
    rw [hv, Option.some.injEq] at hw
    rw [hw, hMore] at hShort
    cases hShort
  · exact h id hBoth

theorem Exclusive.foldl_follow {l : WaitingLine} (h : l.Exclusive) (es : List Evaluation) :
    (es.foldl WaitingLine.follow l).Exclusive := by
  induction es generalizing l with
  | nil => exact h
  | cons e rest ih => exact ih (h.follow e)

/-- Whoever is left behind a batch waited before it. -/
theorem Exclusive.batch {l : WaitingLine} (hSound : l.Sound) (h : l.Exclusive) (n : Nat) :
    (batch n l).2.Exclusive := by
  have hBefore : ∀ id i, (WaitingLine.batch n l).2.contains id i = true →
      l.contains id i = true := by
    intro id i hWaits
    obtain ⟨w, hw, hMember⟩ := (contains_iff (sound_batch n hSound) id i).1 hWaits
    rw [toList_batch] at hw
    exact (contains_iff hSound id i).2 ⟨w, List.mem_of_mem_drop hw, hMember⟩
  exact fun id hBoth => h id ⟨hBefore id _ hBoth.1, hBefore id _ hBoth.2⟩

end WaitingLine

namespace RepairQueue

theorem Sound.exclusive_of_closed {q : RepairQueue} (h : q.Sound) (hClosed : q.closed = true) :
    q.line.Exclusive :=
  WaitingLine.exclusive_of_nobody h.line (h.nobody hClosed)

theorem exclusive_settle {q q' : RepairQueue} (h : q.Sound) (hExclusive : q.line.Exclusive)
    {e : Evaluation} (hRegular : e.Regular) (hSettle : q.settle e = .ok q') :
    q'.line.Exclusive := by
  cases hClosed : q.closed with
  | true =>
    obtain ⟨hSound, hStays⟩ := settle_of_closed h hClosed hSettle
    exact hSound.exclusive_of_closed hStays
  | false =>
    rw [settle_of_open hClosed hRegular, Except.ok.injEq] at hSettle
    exact hSettle ▸ hExclusive.follow e

theorem exclusive_settleAll {q : RepairQueue} (h : q.Sound) (hExclusive : q.line.Exclusive)
    {es : List Evaluation} (hRegular : ∀ e ∈ es, e.Regular) :
    (settleAll es q).2.line.Exclusive := by
  cases hClosed : q.closed with
  | true =>
    obtain ⟨hSound, hStays⟩ := sound_settleAll hRegular h
    exact hSound.exclusive_of_closed (hStays.trans hClosed)
  | false =>
    rw [settleAll_of_open hRegular hClosed]
    exact hExclusive.foldl_follow es

end RepairQueue

end ReplicaUpkeep
