import ReplicaUpkeep.Proofs.Queue.Settling

/-!
# Whose turn it is

Round after round the same containers have to wait, everybody who does not wait yet joins, and a batch
leaves.  A batch takes the more urgent first and only then, of each urgency, as many as there are places
left, in the order of the line.  Whoever has left joins again at the next round, behind all equals.  So the
equals take turns, while the more urgent get a place in every round.
-/

namespace ReplicaUpkeep

namespace Waiter

variable {l : List Waiter} (h : l.Pairwise fun v w => v.urgency ≤ w.urgency)
  (u : OrderedPair Imbalance UInt32)
include h

/-- Of a line by urgency, what is taken from the front leaves the places behind the more urgent to those
of one urgency. -/
theorem filter_take_of_ordered (k : Nat) :
    (l.take k).filter (fun w => w.urgency = u) =
      (l.filter fun w => w.urgency = u).take (k - l.countP fun w => w.urgency < u) := by
  induction l generalizing k with
  | nil => simp
  | cons w rest ih =>
    rw [List.pairwise_cons] at h
    cases k with
    | zero => simp
    | succ k =>
      rw [List.take_succ_cons, List.filter_cons, List.filter_cons, List.countP_cons, ih h.2]
      -- The first of the line is before, among, or behind those of the urgency.
      by_cases hEqual : w.urgency = u
      · subst hEqual
        have hNobody : rest.countP (fun v => v.urgency < w.urgency) = 0 := by
          refine List.countP_eq_zero.2 fun v hv => ?_
          have := h.1 v hv
          grind
        have hNot : ¬ w.urgency < w.urgency := by grind
        simp [hNobody, hNot]
      · by_cases hBefore : w.urgency < u
        · simp [hEqual, hBefore]
        · have hNone : rest.filter (fun v => v.urgency = u) = [] := by
            refine List.filter_eq_nil_iff.2 fun v hv => ?_
            have := h.1 v hv
            grind
          simp [hEqual, hNone]

theorem filter_drop_of_ordered (k : Nat) :
    (l.drop k).filter (fun w => w.urgency = u) =
      (l.filter fun w => w.urgency = u).drop (k - l.countP fun w => w.urgency < u) := by
  have hSplit : (l.take k).filter (fun w => w.urgency = u) ++
      (l.drop k).filter (fun w => w.urgency = u) = l.filter fun w => w.urgency = u := by
    rw [← List.filter_append, List.take_append_drop]
  rw [filter_take_of_ordered h] at hSplit
  exact List.append_cancel_left (hSplit.trans (List.take_append_drop _ _).symm)

end Waiter

/-- Everybody whom evaluations make wait. -/
def waitersOf (es : List Evaluation) : List Waiter :=
  es.filterMap Evaluation.waiter?

/-- How many wait that are more urgent. -/
def aheadOf (es : List Evaluation) (u : OrderedPair Imbalance UInt32) : Nat :=
  (waitersOf es).countP fun w => w.urgency < u

/-- Those who wait with one urgency, in the order of their containers. -/
def equalsOf (es : List Evaluation) (u : OrderedPair Imbalance UInt32) : List Waiter :=
  (waitersOf es).filter fun w => w.urgency = u

theorem mem_waitersOf_iff (es : List Evaluation) (w : Waiter) :
    w ∈ waitersOf es ↔ ∃ e ∈ es, e.waiter? = some w :=
  List.mem_filterMap

theorem length_waitersOf (es : List Evaluation) :
    (waitersOf es).length = es.countP Evaluation.isOffBalance := by
  rw [waitersOf, List.length_filterMap_eq_countP]
  exact List.countP_congr fun e _ => by rw [Evaluation.isSome_waiter?]

theorem nodup_container_waitersOf {es : List Evaluation} (hIds : (es.map Evaluation.id).Nodup) :
    (waitersOf es).Pairwise fun v w => v.container ≠ w.container := by
  rw [waitersOf, List.pairwise_filterMap]
  rw [List.Nodup, List.pairwise_map] at hIds
  refine hIds.imp fun hOther v hv w hw => ?_
  rwa [Evaluation.container_of_waiter? hv, Evaluation.container_of_waiter? hw]

theorem nodup_waitersOf {es : List Evaluation} (hIds : (es.map Evaluation.id).Nodup) :
    (waitersOf es).Nodup :=
  (nodup_container_waitersOf hIds).imp fun hOther hSame => hOther (congrArg _ hSame)

/-- How many of the equals come before a waiter. -/
def beforeOf (es : List Evaluation) (w : Waiter) : Nat :=
  (waitersOf es).countP fun v => v.urgency = w.urgency ∧ v.container < w.container

/-- A waiter itself is neither among those ahead nor among the equals before it. -/
theorem beforeOf_add_aheadOf_lt {es : List Evaluation} {w : Waiter} (hw : w ∈ waitersOf es) :
    beforeOf es w + aheadOf es w.urgency < (waitersOf es).length := by
  have hPerm := List.perm_cons_erase hw
  have hNot : ¬ w.container < w.container := by grind
  have hNotAhead : ¬ w.urgency < w.urgency := by grind
  have hDisjoint : ((waitersOf es).erase w).countP (fun v => v.urgency < w.urgency) ≤
      ((waitersOf es).erase w).countP fun v =>
        ¬ (decide (v.urgency = w.urgency ∧ v.container < w.container)) = true :=
    List.countP_mono_left fun v _ hAhead => by grind
  have hLength := List.length_eq_countP_add_countP
    (fun v => decide (v.urgency = w.urgency ∧ v.container < w.container)) (l := (waitersOf es).erase w)
  rw [beforeOf, aheadOf, hPerm.countP_eq, hPerm.countP_eq, hPerm.length_eq, List.length_cons]
  simp only [List.countP_cons, hNot, hNotAhead, and_false, decide_false, Bool.false_eq_true, if_false]
  omega

/-- So many rounds as there are places for everybody reach to everybody, if all are equally urgent or fit
into one round. -/
theorem beforeOf_lt_of_enough {es : List Evaluation} {w : Waiter} (hw : w ∈ waitersOf es)
    {places rounds : Nat}
    (hAllowed : (∀ v ∈ waitersOf es, v.urgency = w.urgency) ∨ (waitersOf es).length ≤ places)
    (hEnough : (waitersOf es).length ≤ rounds * places) :
    beforeOf es w < rounds * (places - aheadOf es w.urgency) := by
  have hPlace := beforeOf_add_aheadOf_lt hw
  rcases hAllowed with hEqual | hFew
  · -- Among equals nobody is ahead, so every place of every round counts.
    have hNobody : aheadOf es w.urgency = 0 := by
      refine List.countP_eq_zero.2 fun v hv => ?_
      rw [hEqual v hv]
      grind
    rw [hNobody] at hPlace ⊢
    exact Nat.lt_of_lt_of_le hPlace hEnough
  · -- If all fit into one round, everybody's turn is in the first.
    have hSome : 0 < rounds := by
      refine Nat.pos_of_ne_zero fun hNone => ?_
      rw [hNone, Nat.zero_mul] at hEnough
      omega
    calc beforeOf es w < places - aheadOf es w.urgency := by omega
      _ ≤ rounds * (places - aheadOf es w.urgency) := Nat.le_mul_of_pos_left _ hSome

/-- In ascending order, the place of a container is the number of those before it. -/
theorem getElem?_countP_of_ascending {l : List Waiter}
    (h : l.Pairwise fun v w => v.container < w.container) {w : Waiter} (hw : w ∈ l) :
    l[l.countP fun v => v.container < w.container]? = some w := by
  induction l with
  | nil => cases hw
  | cons v rest ih =>
    rw [List.pairwise_cons] at h
    rcases List.mem_cons.1 hw with rfl | hRest
    · have hNobody : rest.countP (fun v => v.container < w.container) = 0 := by
        refine List.countP_eq_zero.2 fun v hv => ?_
        have := h.1 v hv
        grind
      have hNot : ¬ w.container < w.container := by grind
      simp [hNobody, hNot]
    · simpa [List.countP_cons, h.1 w hRest] using ih h.2 hRest

theorem getElem?_equalsOf {es : List Evaluation}
    (hAscending : (es.map Evaluation.id).Pairwise (· < ·)) {w : Waiter} (hw : w ∈ waitersOf es) :
    (equalsOf es w.urgency)[beforeOf es w]? = some w := by
  have hOrdered : (waitersOf es).Pairwise fun v w => v.container < w.container := by
    rw [waitersOf, List.pairwise_filterMap]
    rw [List.pairwise_map] at hAscending
    refine hAscending.imp fun hlt v hv w hw => ?_
    rwa [Evaluation.container_of_waiter? hv, Evaluation.container_of_waiter? hw]
  have hEquals : (equalsOf es w.urgency).Pairwise fun v w => v.container < w.container :=
    hOrdered.sublist List.filter_sublist
  have hMem : w ∈ equalsOf es w.urgency := by
    simpa [equalsOf] using hw
  have hCount : beforeOf es w =
      (equalsOf es w.urgency).countP fun v => v.container < w.container := by
    rw [beforeOf, equalsOf, List.countP_filter]
    exact List.countP_congr fun v _ => by simp [and_comm]
  rw [hCount]
  exact getElem?_countP_of_ascending hEquals hMem

namespace WaitingLine

theorem fits_empty (es : List Evaluation) : empty.Fits es := by
  intro w hw
  cases hw

variable {es : List Evaluation} (hIds : (es.map Evaluation.id).Nodup) {l : WaitingLine}
  (h : l.Sound) (hFits : l.Fits es)
include hIds h hFits

/-- Once every container is settled, exactly those wait that have to. -/
theorem perm_toList_foldl_follow : (es.foldl follow l).toList.Perm (waitersOf es) := by
  have hNodup : (es.foldl follow l).toList.Nodup :=
    List.Nodup.of_map _ (nodup_member_toList (sound_foldl_follow h es))
  refine (List.perm_ext_iff_of_nodup hNodup (nodup_waitersOf hIds)).2 fun w => ?_
  obtain ⟨hAll, hFilter⟩ :=
    filter_urgency_foldl_follow hIds w.urgency (List.Sublist.refl es) h hFits
  rw [mem_waitersOf_iff]
  refine ⟨hAll w, fun hw => ?_⟩
  -- Among its equals it stands either where it stood or with the newcomers.
  have hMem : w ∈ (es.foldl follow l).toList.filter (fun v => v.urgency = w.urgency) := by
    rw [hFilter]
    by_cases hOld : w ∈ l.toList
    · simp [hOld]
    · simpa [hOld] using hw
  exact (List.mem_filter.1 hMem).1

theorem countP_toList_foldl_follow (u : OrderedPair Imbalance UInt32) :
    (es.foldl follow l).toList.countP (fun w => w.urgency < u) = aheadOf es u :=
  (perm_toList_foldl_follow hIds h hFits).countP_eq _

/-! ## Taking turns -/

omit hIds h hFits in
/-- Of the equals of an urgency, the first so many had their turn; the others stand in order before whoever
joined again. -/
def Served (es : List Evaluation) (u : OrderedPair Imbalance UInt32) (n : Nat) (l : WaitingLine) :
    Prop :=
  ∃ again, (es.foldl follow l).toList.filter (fun w => w.urgency = u) =
    (equalsOf es u).drop n ++ again

omit h hFits in
theorem served_empty (u : OrderedPair Imbalance UInt32) : empty.Served es u 0 := by
  have hFilter :=
    (filter_urgency_foldl_follow hIds u (List.Sublist.refl es) sound_empty (fits_empty es)).2
  exact ⟨[], by simpa [toList_empty, equalsOf, waitersOf] using hFilter⟩

theorem fits_batch (k : Nat) : (batch k (es.foldl follow l)).2.Fits es := by
  intro w hw
  rw [toList_batch] at hw
  rw [← mem_waitersOf_iff]
  exact (perm_toList_foldl_follow hIds h hFits).subset (List.mem_of_mem_drop hw)

/-- One round gives their turn to as many more as there are places behind the more urgent. -/
theorem served_batch {u : OrderedPair Imbalance UInt32} {n : Nat} (hServed : l.Served es u n)
    (k : Nat) : (batch k (es.foldl follow l)).2.Served es u (n + (k - aheadOf es u)) := by
  obtain ⟨again, hClass⟩ := hServed
  have hLeft : (batch k (es.foldl follow l)).2.toList.filter (fun w => w.urgency = u) =
      (equalsOf es u).drop (n + (k - aheadOf es u)) ++
        again.drop (k - aheadOf es u - ((equalsOf es u).drop n).length) := by
    rw [toList_batch, Waiter.filter_drop_of_ordered (toList_ordered _), hClass,
      countP_toList_foldl_follow hIds h hFits, List.drop_append, List.drop_drop]
  obtain ⟨-, hFilter⟩ := filter_urgency_foldl_follow hIds u (List.Sublist.refl es)
    (sound_batch k (sound_foldl_follow h es)) (fits_batch hIds h hFits k)
  rw [hLeft, List.append_assoc] at hFilter
  exact ⟨_, hFilter⟩

/-- Who had no turn yet gets one exactly if there is a place left behind the more urgent and those who
stand before among the equals. -/
theorem mem_take_iff_of_served {w : Waiter} {n p : Nat} (hServed : l.Served es w.urgency n)
    (hIndex : (equalsOf es w.urgency)[p]? = some w) (hNotYet : n ≤ p) (k : Nat) :
    w ∈ (es.foldl follow l).toList.take k ↔ p < n + (k - aheadOf es w.urgency) := by
  obtain ⟨again, hClass⟩ := hServed
  have hTaken := Waiter.filter_take_of_ordered (toList_ordered (es.foldl follow l)) w.urgency k
  rw [countP_toList_foldl_follow hIds h hFits, hClass] at hTaken
  have hNodup : ((equalsOf es w.urgency).drop n ++ again).Nodup := by
    rw [← hClass]
    exact (List.Nodup.of_map _ (nodup_member_toList (sound_foldl_follow h es))).filter _
  -- So many have left the front that it stands by as many places further on.
  have hThere : ((equalsOf es w.urgency).drop n ++ again)[p - n]? = some w := by
    have hDrop : ((equalsOf es w.urgency).drop n)[p - n]? = some w := by
      rw [List.getElem?_drop, ← hIndex]
      congr 1
      omega
    exact List.getElem?_append_left (List.getElem?_eq_some_iff.1 hDrop).1 ▸ hDrop
  have hMem : w ∈ (es.foldl follow l).toList.take k ↔
      w ∈ ((equalsOf es w.urgency).drop n ++ again).take (k - aheadOf es w.urgency) := by
    rw [← hTaken, List.mem_filter]
    simp
  rw [hMem, List.mem_iff_getElem?]
  constructor
  · rintro ⟨j, hj⟩
    rw [List.getElem?_take] at hj
    split at hj
    · have hSame : j = p - n := by
        have hBound := (List.getElem?_eq_some_iff.1 hj).1
        exact (List.getElem?_inj hBound hNodup).1 (hj.trans hThere.symm)
      omega
    · cases hj
  · intro hp
    refine ⟨p - n, ?_⟩
    rw [List.getElem?_take, if_pos (by omega), hThere]

end WaitingLine

end ReplicaUpkeep
