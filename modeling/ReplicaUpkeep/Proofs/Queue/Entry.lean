import ReplicaUpkeep.Proofs.Queue.Membership

/-!
# Waiters are ranked once

A waiter is ranked when it joins the line, and nothing that is learnt about its container later moves it:
another evaluation either leaves it where it is or makes it leave.  So as long as evaluations read the
same snapshots, everybody in the line has waited since before, or has joined as the snapshots say.

A container cannot leave and come back meanwhile.  Who left did so because there was nothing to repair, and
the same snapshots do not say otherwise later.
-/

namespace ReplicaUpkeep

namespace WaitingLine

theorem mem_align {l : WaitingLine} (h : l.Sound) {e : Evaluation} {i : Imbalance} {w : Waiter}
    (hw : w ∈ (l.align e i).toList) :
    w ∈ l.toList ∨ (e.waiter? = some w ∧ l.contains w.container w.imbalance = false) := by
  cases hWaiter : e.waiter?.filter (fun v => v.imbalance = i) with
  | none =>
    simp only [align, hWaiter, toList_leave h, List.mem_filter] at hw
    exact .inl hw.1
  | some v =>
    simp only [align, hWaiter] at hw
    cases hWaits : l.contains v.container v.imbalance with
    | true =>
      rw [join_eq_self hWaits] at hw
      exact .inl hw
    | false =>
      rw [toList_join h hWaits, Waiter.mem_queueUp] at hw
      rcases hw with rfl | hOld
      · exact .inr ⟨(Option.filter_eq_some_iff.1 hWaiter).1, hWaits⟩
      · exact .inl hOld

/-- An evaluation makes nobody join but its own container, and not if that waits already. -/
theorem mem_follow {l : WaitingLine} (h : l.Sound) {e : Evaluation} {w : Waiter}
    (hw : w ∈ (l.follow e).toList) :
    w ∈ l.toList ∨ (e.waiter? = some w ∧ l.contains w.container w.imbalance = false) := by
  rcases mem_align (sound_align h e _) hw with hFirst | ⟨hWaiter, hNew⟩
  · exact mem_align h hFirst
  · refine .inr ⟨hWaiter, ?_⟩
    rw [contains_align] at hNew
    split at hNew
    · rename_i hOwn
      have hNeeded := (e.needed_pos_iff .shortage).2 ⟨w, hWaiter, hOwn.2⟩
      simp [hNeeded] at hNew
    · exact hNew

/-- One line comes out of another by evaluations that all tell the same of a container. -/
structure Ensues (before after : WaitingLine) (told : ContainerId → Option Waiter) : Prop where
  /-- Who waits and did before has kept its rank. -/
  stayed : ∀ w ∈ after.toList, before.contains w.container w.imbalance = true → w ∈ before.toList
  /-- Who did not has the rank that is told of it. -/
  came : ∀ w ∈ after.toList, before.contains w.container w.imbalance = false →
    told w.container = some w
  /-- Nobody leaves who is told to wait. -/
  left : ∀ w, told w.container = some w → before.contains w.container w.imbalance = true →
    after.contains w.container w.imbalance = true

variable {before after : WaitingLine} {told : ContainerId → Option Waiter}

theorem Ensues.refl (h : before.Sound) : before.Ensues before told where
  stayed := fun _ hw _ => hw
  came := by
    intro w hw hNew
    rw [(contains_iff h _ _).2 ⟨w, hw, rfl⟩] at hNew
    cases hNew
  left := fun _ _ hWaits => hWaits

/-- One more evaluation of the same kind. -/
theorem Ensues.follow (h : before.Ensues after told) (hSound : after.Sound) {e : Evaluation}
    (hTold : e.waiter? = told e.id) : before.Ensues (after.follow e) told where
  stayed := by
    intro w hw hWaits
    rcases mem_follow hSound hw with hOld | ⟨hWaiter, hNew⟩
    · exact h.stayed w hOld hWaits
    · -- It would have had to leave for nothing before.
      have hAgain : told w.container = some w := by
        rw [Evaluation.container_of_waiter? hWaiter, ← hTold, hWaiter]
      rw [h.left w hAgain hWaits] at hNew
      cases hNew
  came := by
    intro w hw hBefore
    rcases mem_follow hSound hw with hOld | ⟨hWaiter, -⟩
    · exact h.came w hOld hBefore
    · rw [Evaluation.container_of_waiter? hWaiter, ← hTold, hWaiter]
  left := by
    intro w hWaiter hWaits
    rw [contains_follow]
    split
    · rename_i hOwn
      rw [hOwn, ← hTold] at hWaiter
      exact decide_eq_true ((e.needed_pos_iff _).2 ⟨w, hWaiter, rfl⟩)
    · exact h.left w hWaiter hWaits

theorem Ensues.foldl_follow (h : before.Ensues after told) (hSound : after.Sound)
    {es : List Evaluation} (hTold : ∀ e ∈ es, e.waiter? = told e.id) :
    before.Ensues (es.foldl WaitingLine.follow after) told := by
  induction es generalizing after with
  | nil => exact h
  | cons e rest ih =>
    exact ih (h.follow hSound (hTold e List.mem_cons_self)) (sound_follow hSound e)
      fun d hd => hTold d (List.mem_cons_of_mem _ hd)

/-- Who is told to wait does so once its container was evaluated. -/
theorem contains_foldl_follow {l : WaitingLine} (hSound : l.Sound) {es : List Evaluation}
    (hTold : ∀ e ∈ es, e.waiter? = told e.id) {e : Evaluation} (he : e ∈ es) {w : Waiter}
    (hWaiter : e.waiter? = some w) :
    (es.foldl WaitingLine.follow l).contains w.container w.imbalance = true := by
  obtain ⟨past, rest, rfl⟩ := List.append_of_mem he
  have hOwn := Evaluation.container_of_waiter? hWaiter
  have hPast := sound_follow (sound_foldl_follow hSound past) e
  have hJoined : ((past.foldl WaitingLine.follow l).follow e).contains w.container w.imbalance =
      true := by
    rw [contains_follow, if_pos hOwn]
    exact decide_eq_true ((e.needed_pos_iff _).2 ⟨w, hWaiter, rfl⟩)
  have hStays := (Ensues.refl hPast).foldl_follow hPast fun d hd =>
    hTold d (List.mem_append_right past (List.mem_cons_of_mem e hd))
  rw [List.foldl_append, List.foldl_cons]
  exact hStays.left w (by rw [hOwn, ← hTold e he, hWaiter]) hJoined

theorem Ensues.of_toList_eq (h : before.Ensues after told) (hSound : after.Sound)
    {same : WaitingLine} (hSame : same.Sound) (hList : same.toList = after.toList) :
    before.Ensues same told where
  stayed := fun w hw => h.stayed w (hList ▸ hw)
  came := fun w hw => h.came w (hList ▸ hw)
  left := by
    intro w hWaiter hWaits
    rw [contains_iff hSame, hList, ← contains_iff hSound]
    exact h.left w hWaiter hWaits

/-! ## Ranks and counts -/

/-- Everybody who waits for copies is ranked by the count that goes with the container. -/
def RankedBy (l : WaitingLine) (counts : ContainerId → Nat) : Prop :=
  ∀ w ∈ l.toList, w.imbalance = .shortage → w.priority = UInt32.ofNat (counts w.container)

theorem RankedBy.mono {l m : WaitingLine} {counts : ContainerId → Nat} (h : l.RankedBy counts)
    (hSub : m.toList ⊆ l.toList) : m.RankedBy counts :=
  fun w hw => h w (hSub hw)

theorem rankedBy_of_nobody {l : WaitingLine} (hNobody : l.toList = [])
    (counts : ContainerId → Nat) : l.RankedBy counts := by
  intro w hw
  rw [hNobody] at hw
  cases hw

/-- Who waited on keeps its count, and a newcomer has the present one. -/
theorem Ensues.rankedBy (h : before.Ensues after told) {counts good : ContainerId → Nat}
    (hRanked : before.RankedBy counts)
    (hGood : ∀ id w, told id = some w → w.imbalance = .shortage → w.priority = UInt32.ofNat (good id)) :
    after.RankedBy fun id => if before.contains id .shortage then counts id else good id := by
  intro w hw hShort
  cases hWaits : before.contains w.container w.imbalance with
  | true =>
    rw [hShort] at hWaits
    simp only [hWaits, if_true]
    exact hRanked w (h.stayed w hw (hShort ▸ hWaits)) hShort
  | false =>
    have hWaiter := h.came w hw hWaits
    rw [hShort] at hWaits
    simp only [hWaits, Bool.false_eq_true, if_false]
    exact hGood w.container w hWaiter hShort

/-- Ranks that come from counts of fewer than 32 bits are ordered as the counts are. -/
theorem RankedBy.count_le {l : WaitingLine} {counts : ContainerId → Nat} (h : l.RankedBy counts)
    (hFew : ∀ id, counts id < UInt32.size) {v w : Waiter} (hv : v ∈ l.toList) (hw : w ∈ l.toList)
    (hBefore : v.urgency ≤ w.urgency) (hShortV : v.imbalance = .shortage)
    (hShortW : w.imbalance = .shortage) : counts v.container ≤ counts w.container := by
  have hRank : v.priority ≤ w.priority := by
    simp only [Waiter.urgency, OrderedPair.le_def, hShortV, hShortW] at hBefore
    grind
  rw [h v hv hShortV, h w hw hShortW, UInt32.le_iff_toNat_le, UInt32.toNat_ofNat_of_lt' (hFew _),
    UInt32.toNat_ofNat_of_lt' (hFew _)] at hRank
  exact hRank

end WaitingLine

end ReplicaUpkeep
