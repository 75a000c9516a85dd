import ReplicaUpkeep.Manager.Cycle
import ReplicaUpkeep.Proofs.Plan.Need
import ReplicaUpkeep.Proofs.Queue.Inflight
import ReplicaUpkeep.Proofs.Queue.Line

/-!
# Bringing the queue in line

An evaluation changes the queue for its own container only.  In an open queue the container joins or
leaves the line by what it needs, and no more of its repairs stay in flight than it needs; both parts of
the queue can be followed apart.  A closed queue is empty and stays so.

When every container of a list is settled, those that have to wait and did not yet join in the order of
the list, behind all that are at least as urgent.
-/

namespace ReplicaUpkeep

namespace WaitingLine

/-- The line after a container has joined or left it, as it has an imbalance or not. -/
def align (l : WaitingLine) (e : Evaluation) (i : Imbalance) : WaitingLine :=
  match e.waiter?.filter (fun w => w.imbalance = i) with
  | some w => (l.join w.container w.imbalance w.priority).2
  | none => (l.leave e.id i).2

/-- The line brought in line with an evaluation. -/
def follow (l : WaitingLine) (e : Evaluation) : WaitingLine :=
  (l.align e .shortage).align e .surplus

theorem sound_align {l : WaitingLine} (h : l.Sound) (e : Evaluation) (i : Imbalance) :
    (l.align e i).Sound := by
  unfold align
  split
  · exact sound_join h _ _ _
  · exact sound_leave h _ _

theorem sound_follow {l : WaitingLine} (h : l.Sound) (e : Evaluation) : (l.follow e).Sound :=
  sound_align (sound_align h e _) e _

theorem sound_foldl_follow {l : WaitingLine} (h : l.Sound) (es : List Evaluation) :
    (es.foldl follow l).Sound := by
  induction es generalizing l with
  | nil => exact h
  | cons e rest ih => exact ih (sound_follow h e)

end WaitingLine

namespace Inflight

/-- What is in flight, cut down to what an evaluation needs. -/
def follow (f : Inflight) (e : Evaluation) : Inflight :=
  if e.container.state.isBeingDeleted then f.forget e.id
  else (f.trim e.id .replicate (e.needed .shortage)).trim e.id .delete (e.needed .surplus)

/-- Repairs of another container stay in flight. -/
theorem get?_follow_of_ne (f : Inflight) {e : Evaluation} {key : RepairKey} (h : key.major ≠ e.id) :
    (f.follow e).flights.get? key = f.flights.get? key := by
  have hKey : ∀ kind : DirectiveKind, key ≠ ⟨e.id, kind⟩ := by
    rintro kind rfl
    exact h rfl
  rw [follow]
  split
  · rw [get?_forget, if_neg h]
  · rw [get?_trim, if_neg (hKey _), get?_trim, if_neg (hKey _)]

theorem get?_follow (f : Inflight) (e : Evaluation) (i : Imbalance) :
    (f.follow e).flights.get? ⟨e.id, i.repair⟩ =
      cap (e.needed i) (f.flights.get? ⟨e.id, i.repair⟩) := by
  rw [follow]
  split
  · rename_i hDeleted
    have hStage := Evaluation.isRepairable_eq_false_of_isBeingDeleted hDeleted
    have hNeeded : e.needed i = 0 := by simp [Evaluation.needed, hStage]
    rw [get?_forget, if_pos rfl, hNeeded, cap_zero]
  · rw [get?_trim, get?_trim]
    cases i <;> simp [Imbalance.repair]

/-- An evaluation lets nothing fly that did not before. -/
theorem get?_follow_eq_none {f : Inflight} {key : RepairKey} (hNone : f.flights.get? key = none)
    (e : Evaluation) : (f.follow e).flights.get? key = none := by
  rw [follow]
  split
  · rw [get?_forget, hNone, ite_self]
  · simp [get?_trim, hNone, cap]

theorem get?_foldl_follow_of_notMem {es : List Evaluation} {key : RepairKey}
    (h : ∀ e ∈ es, e.id ≠ key.major) (f : Inflight) :
    (es.foldl follow f).flights.get? key = f.flights.get? key := by
  induction es generalizing f with
  | nil => rfl
  | cons e rest ih =>
    have hRest : ∀ d ∈ rest, d.id ≠ key.major := fun d hd => h d (List.mem_cons_of_mem _ hd)
    rw [List.foldl_cons, ih hRest, get?_follow_of_ne f (h e List.mem_cons_self).symm]

/-- Where each container is evaluated once, its flights are cut down to its own need. -/
theorem get?_foldl_follow {es : List Evaluation} (hIds : (es.map Evaluation.id).Nodup)
    {e : Evaluation} (he : e ∈ es) (i : Imbalance) (f : Inflight) :
    (es.foldl follow f).flights.get? ⟨e.id, i.repair⟩ =
      cap (e.needed i) (f.flights.get? ⟨e.id, i.repair⟩) := by
  induction es generalizing f with
  | nil => cases he
  | cons d rest ih =>
    rw [List.map_cons, List.nodup_cons] at hIds
    have hOthers : ∀ c ∈ rest, c.id ≠ d.id := fun c hc hSame =>
      hIds.1 (hSame ▸ List.mem_map_of_mem hc)
    rw [List.foldl_cons]
    rcases List.mem_cons.1 he with rfl | hRest
    · rw [get?_foldl_follow_of_notMem hOthers, get?_follow]
    · rw [ih hIds.2 hRest, get?_follow_of_ne f (hOthers e hRest)]

end Inflight

namespace RepairQueue

/-- A line without contradictions, and nothing in a closed queue. -/
structure Sound (q : RepairQueue) : Prop where
  line : q.line.Sound
  nobody : q.closed = true → q.line.toList = []
  nothing : q.closed = true → ∀ key, q.inflight.flights.get? key = none

theorem sound_empty : empty.Sound where
  line := WaitingLine.sound_empty
  nobody := fun h => by cases h
  nothing := fun h => by cases h

/-- An open queue is sound as soon as its line is. -/
theorem sound_of_open {q : RepairQueue} (h : q.line.Sound) (hOpen : q.closed = false) : q.Sound where
  line := h
  nobody := fun hClosed => by simp [hOpen] at hClosed
  nothing := fun hClosed => by simp [hOpen] at hClosed

theorem sound_close (q : RepairQueue) : q.close.Sound where
  line := {
    inverse := WaitingLine.sound_empty.inverse
    ticketed := by simp [close, WaitingLine.empty] }
  nobody := fun _ => rfl
  nothing := fun _ _ => rfl

/-- An open queue after an evaluation. -/
def settled (q : RepairQueue) (e : Evaluation) : RepairQueue where
  line := q.line.follow e
  inflight := q.inflight.follow e
  closed := q.closed

/-- Evaluations in turn reach the line and what is in flight side by side. -/
theorem foldl_settled (q : RepairQueue) (es : List Evaluation) :
    es.foldl settled q = {
      line := es.foldl WaitingLine.follow q.line
      inflight := es.foldl Inflight.follow q.inflight
      closed := q.closed } := by
  induction es generalizing q with
  | nil => rfl
  | cons e rest ih => exact ih (q.settled e)

theorem align_of_open {q : RepairQueue} (hOpen : q.closed = false) {e : Evaluation} {i : Imbalance}
    {priority : UInt32} {has : Bool}
    (h : e.waiter?.filter (fun w => w.imbalance = i) =
      if has then some ⟨e.id, i, priority⟩ else none) :
    q.align e.id i priority has = .ok { q with line := q.line.align e i } := by
  unfold align WaitingLine.align
  cases has with
  | true => simp [enqueue, hOpen, h, Except.map]
  | false => simp [remove, h]

/-- An open queue takes in every evaluation. -/
theorem settle_of_open {q : RepairQueue} (hOpen : q.closed = false) {e : Evaluation}
    (hRegular : e.Regular) : q.settle e = .ok (q.settled e) := by
  have hShort : e.waiter?.filter (fun w => w.imbalance = .shortage) =
      if e.isRepairable && e.capacity.isUnder then
        some ⟨e.id, .shortage, UInt32.ofNat e.capacity.good⟩ else none := by
    unfold Evaluation.waiter?
    cases e.isRepairable <;> cases e.capacity.isUnder <;> cases e.capacity.isOver <;>
      simp [Option.filter]
  have hMore : e.waiter?.filter (fun w => w.imbalance = .surplus) =
      if e.isRepairable && e.capacity.isOver then some ⟨e.id, .surplus, 0⟩ else none := by
    have hOne := Capacity.isOver_eq_false_of_isUnder (c := e.capacity)
    unfold Evaluation.waiter?
    cases hStage : e.isRepairable <;> cases hUnder : e.capacity.isUnder <;>
      cases hOver : e.capacity.isOver <;> simp_all [Option.filter]
  unfold settle
  split
  · rename_i hDeleted
    -- A container on its way out is not repaired, so forgetting it is leaving with both imbalances.
    have hStage := Evaluation.isRepairable_eq_false_of_isBeingDeleted hDeleted
    have hNobody : e.waiter? = none := by simp [Evaluation.waiter?, hStage]
    simp [forget, remove, settled, WaitingLine.follow, WaitingLine.align, hNobody, Inflight.follow,
      hDeleted]
  · rename_i hKept
    have hFollow : q.follow e.capacity e.isRepairable =
        .ok { q with line := q.line.follow e } := by
      unfold follow
      rw [hRegular.container, align_of_open hOpen hShort]
      exact align_of_open (q := { q with line := q.line.align e .shortage }) hOpen hMore
    rw [hFollow]
    simp [Except.map, trim, settled, Inflight.follow, hKept, Evaluation.needed]

/-- An open queue takes in a list of evaluations without a failure. -/
theorem settleAll_of_open {es : List Evaluation} (hRegular : ∀ e ∈ es, e.Regular) {q : RepairQueue}
    (hOpen : q.closed = false) :
    settleAll es q = (0, {
      line := es.foldl WaitingLine.follow q.line
      inflight := es.foldl Inflight.follow q.inflight
      closed := false }) := by
  induction es generalizing q with
  | nil =>
    rw [settleAll, ← hOpen]
    rfl
  | cons e rest ih =>
    have hRest : ∀ d ∈ rest, d.Regular := fun d hd => hRegular d (List.mem_cons_of_mem _ hd)
    rw [settleAll, settle_of_open hOpen (hRegular e List.mem_cons_self)]
    exact ih hRest hOpen

/-! ## A closed queue -/

/-- A closed queue in which nobody waits. -/
structure Idle (q : RepairQueue) : Prop where
  line : q.line.Sound
  closed : q.closed = true
  nobody : q.line.toList = []

theorem Sound.idle {q : RepairQueue} (h : q.Sound) (hClosed : q.closed = true) : q.Idle where
  line := h.line
  closed := hClosed
  nobody := h.nobody hClosed

section Idle

variable {q : RepairQueue} (h : q.Idle)
include h

theorem Idle.remove (id : ContainerId) (i : Imbalance) : (q.remove id i).2 = q := by
  have hNot : q.line.contains id i = false := by
    rw [← Bool.not_eq_true, WaitingLine.contains_iff h.line, h.nobody]
    simp
  rw [RepairQueue.remove, WaitingLine.leave_eq_self hNot]

/-- To be put into the queue is refused, and to be left out is all right. -/
theorem Idle.align (id : ContainerId) (i : Imbalance) (priority : UInt32) (has : Bool) :
    q.align id i priority has = if has then .error .queueClosed else .ok q := by
  rw [RepairQueue.align, h.remove, enqueue, if_pos h.closed]
  rfl

theorem Idle.follow (e : Evaluation) :
    q.follow e.capacity e.isRepairable = if e.isOffBalance then .error .queueClosed else .ok q := by
  have hSides : e.isOffBalance =
      (e.isRepairable && e.capacity.isUnder || e.isRepairable && e.capacity.isOver) := by
    rw [← Bool.and_or_distrib_left, Evaluation.isOffBalance, Bool.eq_iff_iff]
    simp only [Bool.and_eq_true, Bool.or_eq_true, decide_eq_true_eq, Capacity.isUnder,
      Capacity.isOver]
    exact and_congr_right fun _ => Nat.ne_iff_lt_or_gt
  rw [RepairQueue.follow, h.align, hSides]
  cases e.isRepairable && e.capacity.isUnder with
  | true => rfl
  | false => exact h.align _ _ _ _

/-- An evaluation fails exactly for a container off balance, and then changes nothing. -/
theorem Idle.settle (e : Evaluation) :
    q.settle e = if e.isOffBalance then .error .queueClosed
      else .ok { q with inflight := q.inflight.follow e } := by
  rw [RepairQueue.settle]
  split
  · rename_i hDeleted
    have hStage := Evaluation.isRepairable_eq_false_of_isBeingDeleted hDeleted
    have hEven : e.isOffBalance = false := by rw [Evaluation.isOffBalance, hStage, Bool.false_and]
    rw [hEven, forget, h.remove, h.remove, Inflight.follow, if_pos hDeleted]
    rfl
  · rename_i hKept
    rw [h.follow]
    cases e.isOffBalance with
    | true => rfl
    | false => simp [Except.map, trim, Inflight.follow, hKept, Evaluation.needed]

/-- Evaluations fail as often as a container is off balance, and the others cut its flights down. -/
theorem Idle.settleAll (es : List Evaluation) :
    settleAll es q = (es.countP Evaluation.isOffBalance,
      { q with inflight := (es.filter fun e => !e.isOffBalance).foldl Inflight.follow q.inflight }) := by
  induction es generalizing q with
  | nil => rfl
  | cons e rest ih =>
    rw [RepairQueue.settleAll, h.settle]
    cases hOff : e.isOffBalance with
    | true => simp [ih h, hOff]
    | false =>
      have hNext : RepairQueue.Idle { q with inflight := q.inflight.follow e } :=
        ⟨h.line, h.closed, h.nobody⟩
      simp [ih hNext, hOff]

end Idle

/-- Evaluations leave a closed queue empty. -/
theorem settle_of_closed {q q' : RepairQueue} (h : q.Sound) (hClosed : q.closed = true)
    {e : Evaluation} (hSettle : q.settle e = .ok q') : q'.Sound ∧ q'.closed = true := by
  rw [(h.idle hClosed).settle] at hSettle
  split at hSettle
  · cases hSettle
  · cases hSettle
    exact ⟨⟨h.line, h.nobody, fun _ key => Inflight.get?_follow_eq_none (h.nothing hClosed key) e⟩,
      hClosed⟩

/-! ## Soundness -/

theorem sound_settle {q q' : RepairQueue} (h : q.Sound) {e : Evaluation} (hRegular : e.Regular)
    (hSettle : q.settle e = .ok q') : q'.Sound ∧ q'.closed = q.closed := by
  cases hClosed : q.closed with
  | true => exact settle_of_closed h hClosed hSettle
  | false =>
    rw [settle_of_open hClosed hRegular, Except.ok.injEq] at hSettle
    subst hSettle
    exact ⟨sound_of_open (WaitingLine.sound_follow h.line e) hClosed, hClosed⟩

theorem sound_settleAll {es : List Evaluation} (hRegular : ∀ e ∈ es, e.Regular) {q : RepairQueue}
    (h : q.Sound) : (settleAll es q).2.Sound ∧ (settleAll es q).2.closed = q.closed := by
  induction es generalizing q with
  | nil => exact ⟨h, rfl⟩
  | cons e rest ih =>
    have hRest : ∀ d ∈ rest, d.Regular := fun d hd => hRegular d (List.mem_cons_of_mem _ hd)
    unfold settleAll
    split
    · rename_i q' hSettle
      obtain ⟨hSound, hSame⟩ := sound_settle h (hRegular e List.mem_cons_self) hSettle
      obtain ⟨hAll, hAllSame⟩ := ih hRest hSound
      exact ⟨hAll, hAllSame.trans hSame⟩
    · exact ih hRest h

/-- After a list of evaluations no more repairs count than the container needs. -/
theorem inflightAt_settleAll {es : List Evaluation} (hRegular : ∀ e ∈ es, e.Regular)
    (hIds : (es.map Evaluation.id).Nodup) {q : RepairQueue} (h : q.Sound) {e : Evaluation}
    (he : e ∈ es) (i : Imbalance) (now : Nat) :
    (settleAll es q).2.inflightAt e.id i.repair now =
      min (q.inflightAt e.id i.repair now) (e.needed i) := by
  cases hClosed : q.closed with
  | true =>
    obtain ⟨hSound, hSame⟩ := sound_settleAll hRegular h
    have hBefore := h.nothing hClosed ⟨e.id, i.repair⟩
    have hAfter := hSound.nothing (hSame.trans hClosed) ⟨e.id, i.repair⟩
    rw [inflightAt_eq_number, inflightAt_eq_number, Inflight.number_of_get?_eq_none hBefore,
      Inflight.number_of_get?_eq_none hAfter, Nat.zero_min]
  | false =>
    rw [settleAll_of_open hRegular hClosed]
    exact Inflight.number_of_get?_eq_cap (Inflight.get?_foldl_follow hIds he i _) now

end RepairQueue

/-! ## Whom evaluations put into the line -/

/-- Everybody in the line waits as an evaluation of the list says. -/
def WaitingLine.Fits (l : WaitingLine) (es : List Evaluation) : Prop :=
  ∀ w ∈ l.toList, ∃ e ∈ es, e.waiter? = some w

namespace WaitingLine

section Fits

variable {es : List Evaluation} (hIds : (es.map Evaluation.id).Nodup) {l : WaitingLine}
  (h : l.Sound) (hFits : l.Fits es)

include hIds hFits in
theorem waiter?_of_mem_toList {e : Evaluation} (he : e ∈ es) {w : Waiter} (hw : w ∈ l.toList)
    (hOwn : w.container = e.id) : e.waiter? = some w := by
  obtain ⟨d, hd, hWaiter⟩ := hFits w hw
  have hSame : d.id = e.id := by rw [← Evaluation.container_of_waiter? hWaiter, hOwn]
  rw [← List.inj_on_of_nodup_map hIds hd he hSame]
  exact hWaiter

include hIds h hFits

/-- A container without an imbalance has nothing to leave. -/
theorem align_eq_self {e : Evaluation} (he : e ∈ es) {i : Imbalance}
    (hOther : ∀ w, e.waiter? = some w → w.imbalance ≠ i) : l.align e i = l := by
  have hNone : e.waiter?.filter (fun w => w.imbalance = i) = none := by
    cases hWaiter : e.waiter? with
    | none => rfl
    | some w => simp [Option.filter, hOther w hWaiter]
  have hNot : l.contains e.id i = false := by
    rw [← Bool.not_eq_true, contains_iff h]
    rintro ⟨w, hw, hMember⟩
    simp only [Waiter.member, OrderedPair.mk.injEq] at hMember
    exact hOther w (waiter?_of_mem_toList hIds hFits he hw hMember.1) hMember.2
  rw [align, hNone]
  exact leave_eq_self hNot

/-- One who waits already stays in place, and only a newcomer is put into the line. -/
theorem toList_align {e : Evaluation} (he : e ∈ es) {w : Waiter} (hWaiter : e.waiter? = some w) :
    (l.align e w.imbalance).toList = if w ∈ l.toList then l.toList else w.queueUp l.toList := by
  have hOwn := Evaluation.container_of_waiter? hWaiter
  have hWaits : l.contains w.container w.imbalance = true ↔ w ∈ l.toList := by
    rw [contains_iff h]
    constructor
    · rintro ⟨v, hv, hMember⟩
      simp only [Waiter.member, OrderedPair.mk.injEq] at hMember
      have hSame := waiter?_of_mem_toList hIds hFits he hv (hMember.1.trans hOwn)
      rw [hWaiter, Option.some.injEq] at hSame
      rwa [hSame]
    · intro hw
      exact ⟨w, hw, rfl⟩
  have hAlign : l.align e w.imbalance = (l.join w.container w.imbalance w.priority).2 := by
    simp [align, hWaiter, Option.filter]
  rw [hAlign]
  split
  · rename_i hw
    rw [join_eq_self (hWaits.2 hw)]
  · rename_i hw
    exact toList_join h (by simpa using mt hWaits.1 hw)

theorem fits_align {e : Evaluation} (he : e ∈ es) {w : Waiter} (hWaiter : e.waiter? = some w) :
    (l.align e w.imbalance).Fits es := by
  intro v hv
  rw [toList_align hIds h hFits he hWaiter] at hv
  split at hv
  · exact hFits v hv
  · rcases (Waiter.mem_queueUp w v _).1 hv with rfl | hOld
    · exact ⟨e, he, hWaiter⟩
    · exact hFits v hOld

/-- An evaluation puts its own container into the line, where that does not wait yet. -/
theorem toList_follow {e : Evaluation} (he : e ∈ es) :
    (l.follow e).toList =
      match e.waiter? with
      | some w => if w ∈ l.toList then l.toList else w.queueUp l.toList
      | none => l.toList := by
  cases hWaiter : e.waiter? with
  | none =>
    have hOther : ∀ i, ∀ w, e.waiter? = some w → w.imbalance ≠ i := by simp [hWaiter]
    rw [follow, align_eq_self hIds h hFits he (hOther _), align_eq_self hIds h hFits he (hOther _)]
  | some w =>
    have hOther : ∀ i, w.imbalance ≠ i → ∀ v, e.waiter? = some v → v.imbalance ≠ i := by
      intro i hi v hv
      rw [hWaiter, Option.some.injEq] at hv
      rwa [← hv]
    show (l.follow e).toList = if w ∈ l.toList then l.toList else w.queueUp l.toList
    rw [← toList_align hIds h hFits he hWaiter, follow]
    cases hImbalance : w.imbalance with
    | shortage =>
      have hSound := sound_align h e w.imbalance
      have hStill := fits_align hIds h hFits he hWaiter
      rw [hImbalance] at hSound hStill
      rw [align_eq_self hIds hSound hStill he (hOther .surplus (by simp [hImbalance]))]
    | surplus => rw [align_eq_self hIds h hFits he (hOther .shortage (by simp [hImbalance]))]

theorem fits_follow {e : Evaluation} (he : e ∈ es) : (l.follow e).Fits es := by
  intro v hv
  rw [toList_follow hIds h hFits he] at hv
  split at hv
  · rename_i w hWaiter
    split at hv
    · exact hFits v hv
    · rcases (Waiter.mem_queueUp w v _).1 hv with rfl | hOld
      · exact ⟨e, he, hWaiter⟩
      · exact hFits v hOld
  · exact hFits v hv

end Fits

/-- When a list of containers is settled, those of one urgency that have to wait and did not yet come
last among their equals, in the order of the list. -/
theorem filter_urgency_foldl_follow {es : List Evaluation} (hIds : (es.map Evaluation.id).Nodup)
    (u : OrderedPair Imbalance UInt32) {part : List Evaluation} (hPart : part.Sublist es)
    {l : WaitingLine} (h : l.Sound) (hFits : l.Fits es) :
    (part.foldl follow l).Fits es ∧
      (part.foldl follow l).toList.filter (fun w => w.urgency = u) =
        l.toList.filter (fun w => w.urgency = u) ++
          (part.filterMap Evaluation.waiter?).filter (fun w => w.urgency = u ∧ w ∉ l.toList) := by
  induction part generalizing l with
  | nil => simp [hFits]
  | cons e rest ih =>
    have he : e ∈ es := hPart.subset List.mem_cons_self
    have hRest : rest.Sublist es := (List.sublist_cons_self e rest).trans hPart
    obtain ⟨hAll, hFilter⟩ := ih hRest (sound_follow h e) (fits_follow hIds h hFits he)
    refine ⟨hAll, ?_⟩
    rw [List.foldl_cons, hFilter, toList_follow hIds h hFits he]
    cases hWaiter : e.waiter? with
    | none => simp [hWaiter]
    | some w =>
      rw [List.filterMap_cons_some hWaiter]
      by_cases hw : w ∈ l.toList
      · simp [hw]
      · -- The containers that follow are others, so none of them is taken for the newcomer.
        have hOthers : ∀ v ∈ rest.filterMap Evaluation.waiter?, v ≠ w := by
          rintro v hv rfl
          obtain ⟨d, hd, hSame⟩ := List.mem_filterMap.1 hv
          have hDistinct := (hPart.map Evaluation.id).nodup hIds
          rw [List.map_cons, List.nodup_cons] at hDistinct
          apply hDistinct.1
          rw [← Evaluation.container_of_waiter? hWaiter, Evaluation.container_of_waiter? hSame]
          exact List.mem_map_of_mem hd
        have hRestFilter : (rest.filterMap Evaluation.waiter?).filter
              (fun v => v.urgency = u ∧ v ∉ w.queueUp l.toList) =
            (rest.filterMap Evaluation.waiter?).filter
              (fun v => v.urgency = u ∧ v ∉ l.toList) := by
          refine List.filter_congr fun v hv => ?_
          simp [Waiter.mem_queueUp, hOthers v hv]
        simp only [hw, if_false, hRestFilter, Waiter.filter_urgency_queueUp]
        by_cases hu : w.urgency = u
        · simp [hu, hw]
        · simp [hu]

end WaitingLine

end ReplicaUpkeep
