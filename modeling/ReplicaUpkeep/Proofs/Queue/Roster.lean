import ReplicaUpkeep.Proofs.Queue.Line
import ReplicaUpkeep.Queue

/-!
# The queue as one list

Whoever calls a repair queue sees one list of waiters, and whether the queue is closed.  This module
writes that list down as a queue of its own, the *roster*: who joins is put behind all that are at least
as urgent, a batch is the front of the list, and who leaves is struck out.  The main statement is that
calls in any order are answered by the repair queue as by the roster, while its two tables stay inverse to
each other.

Tickets are numbers without a bound, so nothing is said of how many containers may ever join.
-/

namespace ReplicaUpkeep

/-- A call on the waiting line of a repair queue. -/
inductive LineCall where
  | enqueue (id : ContainerId) (i : Imbalance) (priority : UInt32)
  | dequeue (n : Nat)
  | remove (id : ContainerId) (i : Imbalance)
  | forget (id : ContainerId)
  | close
  | contains (id : ContainerId) (i : Imbalance)
  | count (i : Imbalance)
  | isEmpty
  deriving DecidableEq, Repr

/-- What a call is answered with. -/
inductive LineAnswer where
  | refused (fault : Error)
  | flag (b : Bool)
  | batch (waiters : List Waiter)
  | number (n : Nat)
  | done
  deriving DecidableEq, Repr

namespace LineCall

/-- The answers to calls in turn, and the state that they leave. -/
def answerAll {σ : Type} (handle : σ → LineCall → LineAnswer × σ) :
    σ → List LineCall → List LineAnswer × σ
  | s, [] => ([], s)
  | s, call :: rest =>
    let first := handle s call
    let others := answerAll handle first.2 rest
    (first.1 :: others.1, others.2)

/-- Who joins by a call, as its answer tells. -/
def joined : LineCall → LineAnswer → List Waiter
  | .enqueue id i priority, .flag true => [⟨id, i, priority⟩]
  | _, _ => []

/-- Who joins by calls in turn. -/
def joinedIn (calls : List LineCall) (answers : List LineAnswer) : List Waiter :=
  (calls.zip answers).flatMap fun c => c.1.joined c.2

theorem joinedIn_cons (call : LineCall) (calls : List LineCall) (answer : LineAnswer)
    (answers : List LineAnswer) :
    joinedIn (call :: calls) (answer :: answers) = call.joined answer ++ joinedIn calls answers :=
  rfl

end LineCall

namespace LineAnswer

/-- Who is handed out by an answer. -/
def served : LineAnswer → List Waiter
  | .batch waiters => waiters
  | _ => []

/-- Who is handed out by answers in turn. -/
def servedIn (answers : List LineAnswer) : List Waiter :=
  answers.flatMap served

theorem servedIn_cons (answer : LineAnswer) (answers : List LineAnswer) :
    servedIn (answer :: answers) = answer.served ++ servedIn answers :=
  rfl

end LineAnswer

/-- All that callers see of a queue: who waits, in order, and whether it is closed. -/
structure Roster where
  waiters : List Waiter
  closed : Bool
  deriving DecidableEq, Repr

namespace RepairQueue

/-- The queue after a call, with the answer. -/
def handle (q : RepairQueue) : LineCall → LineAnswer × RepairQueue
  | .enqueue id i priority =>
    match q.enqueue id i priority with
    | .error fault => (.refused fault, q)
    | .ok (isNew, q') => (.flag isNew, q')
  | .dequeue n => (.batch (q.dequeue n).1, (q.dequeue n).2)
  | .remove id i => (.flag (q.remove id i).1, (q.remove id i).2)
  | .forget id => (.done, q.forget id)
  | .close => (.done, q.close)
  | .contains id i => (.flag (q.contains id i), q)
  | .count i => (.number (q.count i), q)
  | .isEmpty => (.flag q.isEmpty, q)

/-- What callers see of a queue. -/
def roster (q : RepairQueue) : Roster where
  waiters := q.line.toList
  closed := q.closed

end RepairQueue

namespace Roster

/-- The open roster on which nobody stands. -/
def empty : Roster where
  waiters := []
  closed := false

/-- Does a container stand on the roster with an imbalance? -/
def lists (r : Roster) (id : ContainerId) (i : Imbalance) : Bool :=
  r.waiters.any fun w => w.member = ⟨id, i⟩

/-- The roster after a call, with the answer. -/
def handle (r : Roster) : LineCall → LineAnswer × Roster
  | .enqueue id i priority =>
    if r.closed then (.refused .queueClosed, r)
    else if r.lists id i then (.flag false, r)
    else (.flag true, { r with waiters := Waiter.queueUp ⟨id, i, priority⟩ r.waiters })
  | .dequeue n => (.batch (r.waiters.take n), { r with waiters := r.waiters.drop n })
  | .remove id i =>
    (.flag (r.lists id i), { r with waiters := r.waiters.filter fun w => w.member ≠ ⟨id, i⟩ })
  | .forget id => (.done, { r with waiters := r.waiters.filter fun w => w.container ≠ id })
  | .close => (.done, { waiters := [], closed := true })
  | .contains id i => (.flag (r.lists id i), r)
  | .count i => (.number (r.waiters.countP fun w => w.imbalance = i), r)
  | .isEmpty => (.flag r.waiters.isEmpty, r)

/-- Who is struck out by a call without being handed out. -/
def withdrawnBy (r : Roster) : LineCall → List Waiter
  | .remove id i => r.waiters.filter fun w => w.member = ⟨id, i⟩
  | .forget id => r.waiters.filter fun w => w.container = id
  | .close => r.waiters
  | _ => []

/-- Who is struck out by calls in turn without being handed out. -/
def withdrawnIn : Roster → List LineCall → List Waiter
  | _, [] => []
  | r, call :: rest => r.withdrawnBy call ++ withdrawnIn (r.handle call).2 rest

/-- A roster on which nobody stands twice, ordered by urgency, and among the equally urgent in the order
in which they joined. -/
structure Orderly (r : Roster) (joined : List Waiter) : Prop where
  once : (r.waiters.map Waiter.member).Nodup
  byUrgency : r.waiters.Pairwise fun v w => v.urgency ≤ w.urgency
  inTurn : ∀ u, (r.waiters.filter fun w => w.urgency = u).Sublist joined

end Roster

/-! ## Each call is answered as by the roster -/

namespace WaitingLine

section Sound

variable {l : WaitingLine} (h : l.Sound)
include h

theorem contains_eq_any (id : ContainerId) (i : Imbalance) :
    l.contains id i = l.toList.any fun w => w.member = ⟨id, i⟩ := by
  rw [Bool.eq_iff_iff, contains_iff h, List.any_eq_true]
  simp only [decide_eq_true_eq]

/-- The side by member lists those who wait. -/
theorem perm_keys_members : l.members.keys.Perm (l.toList.map Waiter.member) := by
  refine (List.perm_ext_iff_of_nodup l.members.keys_nodup (nodup_member_toList h)).2 fun m => ?_
  have hContains := contains_iff h m.major m.minor
  rw [contains, Table.contains, Option.isSome_iff_exists] at hContains
  rw [Table.mem_keys_iff, hContains, List.mem_map]

theorem count_eq_countP (i : Imbalance) :
    l.count i = l.toList.countP fun w => w.imbalance = i := by
  calc l.count i = l.members.keys.countP fun m => m.minor = i := by
        rw [count, Table.size, Table.filter, Table.keys, List.countP_map, List.countP_eq_length_filter]
        rfl
    _ = (l.toList.map Waiter.member).countP fun m => m.minor = i := (perm_keys_members h).countP_eq _
    _ = l.toList.countP fun w => w.imbalance = i := List.countP_map

theorem isEmpty_eq : l.isEmpty = l.toList.isEmpty := by
  have hLength := (perm_keys_members h).length_eq
  rw [Table.keys, List.length_map, List.length_map] at hLength
  rw [isEmpty, Table.isEmpty, Bool.eq_iff_iff, List.isEmpty_iff_length_eq_zero, hLength,
    List.isEmpty_iff_length_eq_zero]

/-- Whoever leaves with both imbalances is gone. -/
theorem toList_leave_both (id : ContainerId) :
    ((l.leave id .shortage).2.leave id .surplus).2.toList =
      l.toList.filter fun w => w.container ≠ id := by
  rw [toList_leave (sound_leave h id .shortage), toList_leave h, List.filter_filter]
  refine List.filter_congr fun w _ => ?_
  cases hImbalance : w.imbalance <;> simp [Waiter.member, hImbalance]

end Sound

/-- A longer batch is a batch and a batch from behind it. -/
theorem batch_add (a b : Nat) (l : WaitingLine) :
    batch (a + b) l = ((batch a l).1 ++ (batch b (batch a l).2).1, (batch b (batch a l).2).2) := by
  induction a generalizing l with
  | zero => rw [Nat.zero_add]; rfl
  | succ a ih =>
    rw [Nat.succ_add, batch, batch]
    cases hNext : l.next? with
    | none =>
      have hNobody : batch b l = ([], l) := by
        cases b with
        | zero => rfl
        | succ b => simp [batch, hNext]
      simp [hNobody]
    | some first => simp [ih]

end WaitingLine

namespace RepairQueue

theorem toList_forget {q : RepairQueue} (h : q.line.Sound) (id : ContainerId) :
    (q.forget id).line.toList = q.line.toList.filter fun w => w.container ≠ id :=
  WaitingLine.toList_leave_both h id

theorem dequeue_add (q : RepairQueue) (a b : Nat) :
    q.dequeue (a + b) =
      ((q.dequeue a).1 ++ ((q.dequeue a).2.dequeue b).1, ((q.dequeue a).2.dequeue b).2) := by
  simp only [dequeue, WaitingLine.batch_add]

/-- No call breaks the line. -/
theorem sound_handle {q : RepairQueue} (h : q.line.Sound) (call : LineCall) :
    (q.handle call).2.line.Sound := by
  cases call with
  | enqueue id i priority =>
    cases hClosed : q.closed with
    | true => simpa [handle, enqueue, hClosed] using h
    | false => simpa [handle, enqueue, hClosed] using WaitingLine.sound_join h id i priority
  | dequeue n => exact WaitingLine.sound_batch n h
  | remove id i => exact WaitingLine.sound_leave h id i
  | forget id => exact WaitingLine.sound_leave (WaitingLine.sound_leave h id .shortage) id .surplus
  | close => exact ⟨WaitingLine.sound_empty.inverse, by simp [handle, close, WaitingLine.empty]⟩
  | contains id i => exact h
  | count i => exact h
  | isEmpty => exact h

theorem lists_roster {q : RepairQueue} (h : q.line.Sound) (id : ContainerId) (i : Imbalance) :
    q.roster.lists id i = q.line.contains id i :=
  (WaitingLine.contains_eq_any h id i).symm

/-- A queue answers a call as its roster does, and then shows what that roster has become. -/
theorem handle_roster {q : RepairQueue} (h : q.line.Sound) (call : LineCall) :
    q.roster.handle call = ((q.handle call).1, (q.handle call).2.roster) := by
  cases call with
  | enqueue id i priority =>
    rw [Roster.handle, lists_roster h]
    cases hClosed : q.closed with
    | true => simp [handle, enqueue, roster, hClosed]
    | false =>
      cases hWaits : q.line.contains id i with
      | true => simp [handle, enqueue, WaitingLine.join, hWaits, roster, hClosed]
      | false =>
        have hJoin := WaitingLine.toList_join h (w := ⟨id, i, priority⟩) hWaits
        have hNew : (q.line.join id i priority).1 = true := by simp [WaitingLine.join, hWaits]
        simp [handle, enqueue, hNew, roster, hClosed, hJoin]
  | dequeue n =>
    simp only [Roster.handle, handle, dequeue, roster, WaitingLine.batch_fst,
      WaitingLine.toList_batch]
  | remove id i =>
    have hLeft : (q.line.leave id i).1 = q.line.contains id i := by
      rw [WaitingLine.leave, WaitingLine.contains, Table.contains]
      cases q.line.members.get? ⟨id, i⟩ <;> rfl
    rw [Roster.handle, lists_roster h]
    simp only [handle, remove, roster, hLeft, WaitingLine.toList_leave h]
  | forget id =>
    have hGone := toList_forget h id
    simp only [Roster.handle, handle, roster, hGone]
    rfl
  | close => rfl
  | contains id i =>
    rw [Roster.handle, lists_roster h]
    rfl
  | count i => simp only [Roster.handle, handle, count, WaitingLine.count_eq_countP h, roster]
  | isEmpty => simp only [Roster.handle, handle, isEmpty, WaitingLine.isEmpty_eq h, roster]

/-- Calls in turn are answered as by the roster. -/
theorem answerAll_roster {q : RepairQueue} (h : q.line.Sound) (calls : List LineCall) :
    (LineCall.answerAll handle q calls).2.line.Sound ∧
      LineCall.answerAll Roster.handle q.roster calls =
        ((LineCall.answerAll handle q calls).1, (LineCall.answerAll handle q calls).2.roster) := by
  induction calls generalizing q with
  | nil => exact ⟨h, rfl⟩
  | cons call rest ih =>
    obtain ⟨hSound, hRest⟩ := ih (sound_handle h call)
    refine ⟨hSound, ?_⟩
    simp only [LineCall.answerAll, handle_roster h, hRest]

end RepairQueue

/-! ## What becomes of those who join -/

namespace Waiter

theorem perm_queueUp {w : Waiter} {l : List Waiter} :
    (w.queueUp l).Perm (w :: l) := by
  have hBehind : l.filter (fun v => w.urgency < v.urgency) =
      l.filter fun v => ! decide (v.urgency ≤ w.urgency) :=
    List.filter_congr fun v _ => by grind
  rw [queueUp, hBehind]
  exact List.perm_middle.trans ((List.filter_append_perm _ l).cons w)

end Waiter

namespace Roster

/-- Whoever stood on the roster or joins by a call is handed out, struck out or stands on it afterwards. -/
theorem perm_handle (r : Roster) (call : LineCall) :
    (r.waiters ++ call.joined (r.handle call).1).Perm
      ((r.handle call).1.served ++ (r.withdrawnBy call ++ (r.handle call).2.waiters)) := by
  cases call with
  | enqueue id i priority =>
    cases hClosed : r.closed with
    | true => simp [handle, hClosed, LineCall.joined, LineAnswer.served, withdrawnBy]
    | false =>
      cases hLists : r.lists id i with
      | true => simp [handle, hClosed, hLists, LineCall.joined, LineAnswer.served, withdrawnBy]
      | false =>
        simp only [handle, hClosed, hLists, LineCall.joined, LineAnswer.served, withdrawnBy,
          Bool.false_eq_true, if_false, List.nil_append]
        exact (List.perm_append_singleton _ _).trans Waiter.perm_queueUp.symm
  | dequeue n => simp [handle, LineCall.joined, LineAnswer.served, withdrawnBy]
  | remove id i =>
    have hSplit := List.filter_append_perm (fun w : Waiter => decide (w.member = ⟨id, i⟩)) r.waiters
    simpa [handle, LineCall.joined, LineAnswer.served, withdrawnBy] using hSplit.symm
  | forget id =>
    have hSplit := List.filter_append_perm (fun w : Waiter => decide (w.container = id)) r.waiters
    simpa [handle, LineCall.joined, LineAnswer.served, withdrawnBy] using hSplit.symm
  | close => simp [handle, LineCall.joined, LineAnswer.served, withdrawnBy]
  | contains id i => simp [handle, LineCall.joined, LineAnswer.served, withdrawnBy]
  | count i => simp [handle, LineCall.joined, LineAnswer.served, withdrawnBy]
  | isEmpty => simp [handle, LineCall.joined, LineAnswer.served, withdrawnBy]

/-- Nobody gets lost and nobody is handed out twice over calls in turn. -/
theorem perm_answerAll (r : Roster) (calls : List LineCall) :
    (r.waiters ++ LineCall.joinedIn calls (LineCall.answerAll handle r calls).1).Perm
      (LineAnswer.servedIn (LineCall.answerAll handle r calls).1 ++
        (withdrawnIn r calls ++ (LineCall.answerAll handle r calls).2.waiters)) := by
  induction calls generalizing r with
  | nil => simp [LineCall.answerAll, LineCall.joinedIn, LineAnswer.servedIn, withdrawnIn]
  | cons call rest ih =>
    have hFirst := r.perm_handle call
    have hRest := ih (r.handle call).2
    simp only [LineCall.answerAll, LineCall.joinedIn_cons, LineAnswer.servedIn_cons, withdrawnIn]
    generalize LineCall.joinedIn rest _ = joined at *
    generalize LineAnswer.servedIn _ = served at *
    generalize withdrawnIn _ rest = withdrawn at *
    generalize (LineCall.answerAll handle (r.handle call).2 rest).2.waiters = left at *
    -- What the first call leaves on the roster is what the others start with.
    calc r.waiters ++ (call.joined (r.handle call).1 ++ joined)
      _ = (r.waiters ++ call.joined (r.handle call).1) ++ joined := (List.append_assoc _ _ _).symm
      _ |>.Perm ((r.handle call).1.served ++
            (r.withdrawnBy call ++ (r.handle call).2.waiters) ++ joined) := hFirst.append_right _
      _ = (r.handle call).1.served ++
            (r.withdrawnBy call ++ ((r.handle call).2.waiters ++ joined)) := by
          simp only [List.append_assoc]
      _ |>.Perm ((r.handle call).1.served ++ (r.withdrawnBy call ++ (served ++ (withdrawn ++ left)))) :=
          (hRest.append_left _).append_left _
      _ |>.Perm ((r.handle call).1.served ++ (served ++ (r.withdrawnBy call ++ (withdrawn ++ left)))) :=
          (List.perm_append_comm_assoc _ _ _).append_left _
      _ = (r.handle call).1.served ++ served ++ (r.withdrawnBy call ++ withdrawn ++ left) := by
          simp only [List.append_assoc]

/-- A call leaves the equally urgent in the order in which they joined. -/
theorem inTurn_handle {r : Roster} {joined : List Waiter} {u : OrderedPair Imbalance UInt32}
    (h : (r.waiters.filter fun w => w.urgency = u).Sublist joined) (call : LineCall) :
    ((r.handle call).2.waiters.filter fun w => w.urgency = u).Sublist
      (joined ++ call.joined (r.handle call).1) := by
  have hLess : ∀ l : List Waiter, l.Sublist r.waiters →
      (l.filter fun w => w.urgency = u).Sublist (joined ++ call.joined (r.handle call).1) :=
    fun l hl => ((hl.filter _).trans h).trans (List.sublist_append_left _ _)
  cases call with
  | enqueue id i priority =>
    cases hClosed : r.closed with
    | true => simpa [handle, hClosed, LineCall.joined] using h
    | false =>
      cases hLists : r.lists id i with
      | true => simpa [handle, hClosed, hLists, LineCall.joined] using h
      | false =>
        simp only [handle, hClosed, hLists, LineCall.joined, Bool.false_eq_true, if_false,
          Waiter.filter_urgency_queueUp]
        split
        · exact h.append (List.Sublist.refl _)
        · exact h.trans (List.sublist_append_left _ _)
  | dequeue n => exact hLess _ (List.drop_sublist _ _)
  | remove id i => exact hLess _ List.filter_sublist
  | forget id => exact hLess _ List.filter_sublist
  | close => exact hLess _ (List.nil_sublist _)
  | contains id i => exact hLess _ (List.Sublist.refl _)
  | count i => exact hLess _ (List.Sublist.refl _)
  | isEmpty => exact hLess _ (List.Sublist.refl _)

theorem inTurn_answerAll {r : Roster} {joined : List Waiter} {u : OrderedPair Imbalance UInt32}
    (h : (r.waiters.filter fun w => w.urgency = u).Sublist joined) (calls : List LineCall) :
    ((LineCall.answerAll handle r calls).2.waiters.filter fun w => w.urgency = u).Sublist
      (joined ++ LineCall.joinedIn calls (LineCall.answerAll handle r calls).1) := by
  induction calls generalizing r joined with
  | nil => simpa [LineCall.answerAll, LineCall.joinedIn] using h
  | cons call rest ih =>
    have hRest := ih (inTurn_handle h call)
    rwa [List.append_assoc] at hRest

/-- Once closed, a roster stays closed and empty. -/
theorem answerAll_of_closed (calls : List LineCall) :
    (LineCall.answerAll handle ⟨[], true⟩ calls).2 = ⟨[], true⟩ := by
  induction calls with
  | nil => rfl
  | cons call rest ih =>
    have hStays : (handle ⟨[], true⟩ call).2 = ⟨[], true⟩ := by cases call <;> simp [handle]
    rw [LineCall.answerAll, hStays]
    exact ih

theorem answerAll_of_mem_close {calls : List LineCall} (hClose : .close ∈ calls) (r : Roster) :
    (LineCall.answerAll handle r calls).2 = ⟨[], true⟩ := by
  induction calls generalizing r with
  | nil => cases hClose
  | cons call rest ih =>
    rcases List.mem_cons.1 hClose with rfl | hLater
    · exact answerAll_of_closed rest
    · exact ih hLater (r.handle call).2

end Roster

/-- Calls on a repair queue, as many and in whatever order, are answered as by the roster, and show what the
roster shows.  On the roster nobody stands twice; it is ordered by urgency, and the equally urgent in the
order in which they joined.  Everybody who joined was handed out, was struck out or still stands there, each
as often as they joined.  The two tables of the queue stay inverse to each other; a batch may be taken in two
parts; who waits already is not put in again and keeps the place; and once the queue was closed, nobody
ever stands in it again. -/
theorem queue_answers_as_roster (calls : List LineCall) :
    let done := LineCall.answerAll RepairQueue.handle .empty calls
    let seen := LineCall.answerAll Roster.handle .empty calls
    let joined := LineCall.joinedIn calls done.1
    done.1 = seen.1 ∧ done.2.roster = seen.2 ∧ seen.2.Orderly joined ∧
      joined.Perm (LineAnswer.servedIn done.1 ++
        (Roster.withdrawnIn .empty calls ++ seen.2.waiters)) ∧
      (∀ member place, done.2.line.members.get? member = some place ↔
        done.2.line.ordered.get? place = some member.major ∧ place.major = member.minor) ∧
      (∀ a b, done.2.dequeue (a + b) = ((done.2.dequeue a).1 ++ ((done.2.dequeue a).2.dequeue b).1,
        ((done.2.dequeue a).2.dequeue b).2)) ∧
      (∀ id i priority, done.2.closed = false → done.2.contains id i = true →
        done.2.enqueue id i priority = .ok (false, done.2)) ∧
      (.close ∈ calls → seen.2 = ⟨[], true⟩ ∧
        ∀ id i priority, done.2.enqueue id i priority = .error .queueClosed) := by
  intro done seen joined
  obtain ⟨hSound, hSeen⟩ : done.2.line.Sound ∧ seen = (done.1, done.2.roster) :=
    RepairQueue.answerAll_roster WaitingLine.sound_empty calls
  have hAnswers : seen.1 = done.1 := congrArg Prod.fst hSeen
  have hRoster : seen.2 = done.2.roster := congrArg Prod.snd hSeen
  have hKept := Roster.perm_answerAll .empty calls
  have hTurn : ∀ u, (seen.2.waiters.filter fun w => w.urgency = u).Sublist
      (LineCall.joinedIn calls seen.1) := fun u => by
    have hNobody : (Roster.empty.waiters.filter fun w => w.urgency = u).Sublist [] :=
      List.Sublist.refl _
    exact Roster.inTurn_answerAll hNobody calls
  refine ⟨hAnswers.symm, hRoster.symm, ⟨?_, ?_, fun u => ?_⟩, ?_, hSound.inverse,
    done.2.dequeue_add, fun id i priority hOpen hWaits => ?_, fun hClose => ?_⟩
  · rw [hRoster]
    exact WaitingLine.nodup_member_toList hSound
  · rw [hRoster]
    exact done.2.line.toList_ordered
  · show (seen.2.waiters.filter _).Sublist (LineCall.joinedIn calls done.1)
    rw [← hAnswers]
    exact hTurn u
  · show (LineCall.joinedIn calls done.1).Perm _
    rw [← hAnswers]
    exact hKept
  · have hRefused : done.2.line.join id i priority = (false, done.2.line) := by
      rw [WaitingLine.join, if_pos (show done.2.line.contains id i = true from hWaits)]
    rw [RepairQueue.enqueue, if_neg (by simp [hOpen]), hRefused]
  · have hEmptied : seen.2 = ⟨[], true⟩ := Roster.answerAll_of_mem_close hClose .empty
    have hClosed : done.2.closed = true := congrArg Roster.closed (hRoster.symm.trans hEmptied)
    exact ⟨hEmptied, fun id i priority => by rw [RepairQueue.enqueue, if_pos hClosed]⟩

/-- A shortage is served before a surplus, and of two equal shortages the one that joined first. -/
example :
    (LineCall.answerAll RepairQueue.handle .empty
      [.enqueue ⟨10⟩ .surplus 0, .enqueue ⟨1⟩ .shortage 2, .enqueue ⟨2⟩ .shortage 0,
        .enqueue ⟨3⟩ .shortage 2, .enqueue ⟨3⟩ .shortage 0, .count .shortage, .dequeue 3,
        .close, .enqueue ⟨1⟩ .shortage 0]).1 =
      [.flag true, .flag true, .flag true, .flag true, .flag false, .number 3,
        .batch [⟨⟨2⟩, .shortage, 0⟩, ⟨⟨1⟩, .shortage, 2⟩, ⟨⟨3⟩, .shortage, 2⟩],
        .done, .refused .queueClosed] := by
  decide

end ReplicaUpkeep
