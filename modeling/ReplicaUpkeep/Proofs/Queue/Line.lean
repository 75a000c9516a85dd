import Mathlib.Data.List.Nodup
import ReplicaUpkeep.Queue.Waiting

/-!
# The waiting line as one list

The line is kept twice, by place and by member.  As long as the two sides are inverse to each other and
no ticket was given out twice, the line is a list of waiters without repetition, ordered by urgency and
within one urgency by arrival.  Joining puts a waiter behind all that are at least as urgent, leaving
takes one out, and a batch is taken from the front.  Whatever else is proved of the line is proved of
that list.
-/

namespace ReplicaUpkeep

namespace Waiter

/-- What a waiter is ranked by: the imbalance first, then the priority. -/
def urgency (w : Waiter) : OrderedPair Imbalance UInt32 :=
  ⟨w.imbalance, w.priority⟩

/-- What identifies a waiter in the line. -/
def member (w : Waiter) : Member :=
  ⟨w.container, w.imbalance⟩

/-- The list with a waiter behind all that are at least as urgent. -/
def queueUp (w : Waiter) (l : List Waiter) : List Waiter :=
  l.filter (fun v => v.urgency ≤ w.urgency) ++ w :: l.filter (fun v => w.urgency < v.urgency)

theorem mem_queueUp (w v : Waiter) (l : List Waiter) : v ∈ w.queueUp l ↔ v = w ∨ v ∈ l := by
  have hSplit : v.urgency ≤ w.urgency ∨ w.urgency < v.urgency := by grind
  simp only [queueUp, List.mem_append, List.mem_filter, List.mem_cons, decide_eq_true_eq]
  grind

/-- A new waiter comes last among those of its own urgency, and the others keep their order. -/
theorem filter_urgency_queueUp (w : Waiter) (l : List Waiter) (u : OrderedPair Imbalance UInt32) :
    (w.queueUp l).filter (fun v => v.urgency = u) =
      if w.urgency = u then l.filter (fun v => v.urgency = u) ++ [w]
      else l.filter (fun v => v.urgency = u) := by
  have hBefore : (l.filter (fun v => v.urgency ≤ w.urgency)).filter (fun v => v.urgency = u) =
      if u ≤ w.urgency then l.filter (fun v => v.urgency = u) else [] := by
    rw [List.filter_filter]
    split
    · exact List.filter_congr fun v _ => by grind
    · exact List.filter_eq_nil_iff.2 fun v _ => by grind
  have hBehind : (l.filter (fun v => w.urgency < v.urgency)).filter (fun v => v.urgency = u) =
      if w.urgency < u then l.filter (fun v => v.urgency = u) else [] := by
    rw [List.filter_filter]
    split
    · exact List.filter_congr fun v _ => by grind
    · exact List.filter_eq_nil_iff.2 fun v _ => by grind
  rw [queueUp, List.filter_append, List.filter_cons, hBefore, hBehind]
  by_cases heq : w.urgency = u
  · subst heq
    have hNotLt : ¬ w.urgency < w.urgency := by grind
    simp [Std.le_refl, hNotLt]
  · have hOther : u ≤ w.urgency ↔ ¬ w.urgency < u := by grind
    by_cases hLt : w.urgency < u
    · simp [heq, hOther, hLt]
    · simp [heq, hOther, hLt]

end Waiter

namespace WaitingLine

/-- The two sides of a line are inverse to each other, and every ticket in it was given out. -/
structure Sound (l : WaitingLine) : Prop where
  inverse : ∀ member place, l.members.get? member = some place ↔
    l.ordered.get? place = some member.major ∧ place.major = member.minor
  ticketed : ∀ place id, l.ordered.get? place = some id → place.minor.minor < l.nextTicket

theorem sound_empty : empty.Sound where
  inverse := by simp [empty]
  ticketed := by simp [empty]

/-! ## Joining and leaving keep a line sound -/

section Sound

variable {l : WaitingLine} (h : l.Sound)
include h

theorem sound_join (id : ContainerId) (i : Imbalance) (priority : UInt32) :
    (l.join id i priority).2.Sound := by
  unfold join
  split
  · exact h
  · rename_i hNew
    let place : Place := ⟨i, ⟨priority, l.nextTicket⟩⟩
    have hMember : l.members.get? ⟨id, i⟩ = none := by
      simpa [contains, Table.contains] using hNew
    have hPlace : l.ordered.get? place = none := by
      refine Option.eq_none_iff_forall_ne_some.2 fun other hOther => ?_
      have hTicket : l.nextTicket < l.nextTicket := h.ticketed place other hOther
      omega
    refine ⟨fun member p => ?_, fun p other => ?_⟩
    · simp only [Table.get?_insert]
      by_cases hm : member = ⟨id, i⟩
      · subst hm
        by_cases hp : p = place
        · simp [hp, place]
        · -- No other place may belong to the newcomer, who had none before.
          have hNot := mt (h.inverse ⟨id, i⟩ p).2 (by simp [hMember])
          simpa [hp, place, Ne.symm hp] using hNot
      · have hOld := h.inverse member p
        by_cases hp : p = place
        · subst hp
          have hOther : ¬ (id = member.major ∧ i = member.minor) := by
            rintro ⟨rfl, rfl⟩
            exact hm rfl
          rw [hPlace] at hOld
          simpa [hm, place] using hOld.trans (by simp [hOther])
        · simpa [hm, hp, place] using hOld
    · simp only [Table.get?_insert]
      split
      · rename_i hp
        intro
        simp [hp]
      · intro hOther
        exact Nat.lt_succ_of_lt (h.ticketed p other hOther)

theorem sound_leave (id : ContainerId) (i : Imbalance) : (l.leave id i).2.Sound := by
  unfold leave
  split
  · exact h
  · rename_i place hPlace
    have hOwn := (h.inverse ⟨id, i⟩ place).1 hPlace
    refine ⟨fun member p => ?_, fun p other => ?_⟩
    · simp only [Table.get?_erase]
      have hOld := h.inverse member p
      by_cases hm : member = ⟨id, i⟩
      · subst hm
        by_cases hp : p = place
        · simp [hp]
        · rw [hPlace] at hOld
          simpa [hp, Ne.symm hp] using hOld
      · by_cases hp : p = place
        · subst hp
          have hOther : l.members.get? member ≠ some p := by
            intro hSame
            obtain ⟨hId, hImbalance⟩ := hOld.1 hSame
            rw [hOwn.1, Option.some.injEq] at hId
            apply hm
            cases member
            simp_all
          simpa [hm] using hOther
        · simpa [hm, hp] using hOld
    · simp only [Table.get?_erase]
      split
      · simp
      · exact h.ticketed p other

end Sound

/-! ## Who waits -/

theorem toList_empty : empty.toList = [] :=
  rfl

theorem mem_toList_iff (l : WaitingLine) (w : Waiter) :
    w ∈ l.toList ↔
      ∃ ticket, l.ordered.get? ⟨w.imbalance, ⟨w.priority, ticket⟩⟩ = some w.container := by
  simp only [toList, List.mem_map, Prod.exists, Table.mem_entries_iff]
  constructor
  · rintro ⟨⟨i, priority, ticket⟩, id, hEntry, rfl⟩
    exact ⟨ticket, hEntry⟩
  · rintro ⟨ticket, hEntry⟩
    exact ⟨_, _, hEntry, rfl⟩

/-- The line is ordered by urgency. -/
theorem toList_ordered (l : WaitingLine) :
    l.toList.Pairwise (fun v w => v.urgency ≤ w.urgency) := by
  rw [toList, List.pairwise_map]
  refine l.ordered.ascending.imp fun {a b} hlt => ?_
  obtain ⟨⟨i, priority, ticket⟩, id⟩ := a
  obtain ⟨⟨i', priority', ticket'⟩, id'⟩ := b
  simp only [OrderedPair.lt_def] at hlt
  simp only [Waiter.urgency, OrderedPair.le_def]
  grind

section Sound

variable {l : WaitingLine} (h : l.Sound)
include h

theorem contains_iff (id : ContainerId) (i : Imbalance) :
    l.contains id i = true ↔ ∃ w ∈ l.toList, w.member = ⟨id, i⟩ := by
  simp only [contains, Table.contains, Option.isSome_iff_exists, h.inverse, mem_toList_iff]
  constructor
  · rintro ⟨⟨i', priority, ticket⟩, hPlace, hImbalance⟩
    simp only at hPlace hImbalance
    subst hImbalance
    exact ⟨⟨id, i', priority⟩, ⟨ticket, hPlace⟩, rfl⟩
  · rintro ⟨w, ⟨ticket, hPlace⟩, hMember⟩
    simp only [Waiter.member, OrderedPair.mk.injEq] at hMember
    obtain ⟨rfl, rfl⟩ := hMember
    exact ⟨_, hPlace, rfl⟩

/-- Nobody waits twice with one imbalance. -/
theorem nodup_member_toList : (l.toList.map Waiter.member).Nodup := by
  rw [toList, List.map_map, List.Nodup, List.pairwise_map]
  refine List.Pairwise.imp_of_mem ?_ l.ordered.ascending
  intro a b ha hb hlt hSame
  simp only [Function.comp_apply, Waiter.member, OrderedPair.mk.injEq] at hSame
  have hPlaceA := (h.inverse ⟨a.2, a.1.major⟩ a.1).2
    ⟨(Table.mem_entries_iff _ _ _).1 ha, rfl⟩
  have hPlaceB := (h.inverse ⟨b.2, b.1.major⟩ b.1).2
    ⟨(Table.mem_entries_iff _ _ _).1 hb, rfl⟩
  rw [hSame.1, hSame.2, hPlaceB, Option.some.injEq] at hPlaceA
  rw [hPlaceA] at hlt
  grind

theorem eq_of_member_eq {v w : Waiter} (hv : v ∈ l.toList) (hw : w ∈ l.toList)
    (hMember : v.member = w.member) : v = w :=
  List.inj_on_of_nodup_map (nodup_member_toList h) hv hw hMember

/-! ## What each operation does to the list -/

/-- A newcomer is put behind all that are at least as urgent. -/
theorem toList_join {w : Waiter} (hNew : l.contains w.container w.imbalance = false) :
    (l.join w.container w.imbalance w.priority).2.toList = w.queueUp l.toList := by
  let place : Place := ⟨w.imbalance, ⟨w.priority, l.nextTicket⟩⟩
  -- Its ticket is higher than all others, so it never comes before its equals.
  have hTicket : ∀ e ∈ l.ordered.entries, e.1.minor.minor < l.nextTicket := fun e he =>
    h.ticketed e.1 e.2 ((Table.mem_entries_iff _ _ _).1 he)
  have hBefore : l.ordered.entries.filter (fun e => e.1 < place) =
      l.ordered.entries.filter
        (fun e => (⟨e.1.major, e.1.minor.major⟩ : OrderedPair _ _) ≤ w.urgency) := by
    refine List.filter_congr fun e he => ?_
    have := hTicket e he
    simp only [decide_eq_decide, OrderedPair.lt_def, OrderedPair.le_def, Waiter.urgency, place]
    grind
  have hBehind : l.ordered.entries.filter (fun e => place < e.1) =
      l.ordered.entries.filter
        (fun e => w.urgency < (⟨e.1.major, e.1.minor.major⟩ : OrderedPair _ _)) := by
    refine List.filter_congr fun e he => ?_
    have := hTicket e he
    simp only [decide_eq_decide, OrderedPair.lt_def, Waiter.urgency, place]
    grind
  simp only [join, hNew, Bool.false_eq_true, if_false]
  rw [toList, Table.entries_insert, hBefore, hBehind, Waiter.queueUp, toList, List.map_append,
    List.map_cons, List.filter_map, List.filter_map]
  rfl

omit h in
theorem join_eq_self {id : ContainerId} {i : Imbalance} (hWaits : l.contains id i = true)
    (priority : UInt32) : (l.join id i priority).2 = l := by
  simp [join, hWaits]

omit h in
theorem leave_eq_self {id : ContainerId} {i : Imbalance} (hNot : l.contains id i = false) :
    (l.leave id i).2 = l := by
  have hMember : l.members.get? ⟨id, i⟩ = none := by
    simpa [contains, Table.contains] using hNot
  simp [leave, hMember]

theorem toList_leave (id : ContainerId) (i : Imbalance) :
    (l.leave id i).2.toList = l.toList.filter (fun w => w.member ≠ ⟨id, i⟩) := by
  cases hMember : l.members.get? ⟨id, i⟩ with
  | none =>
    have hNot : l.contains id i = false := by simp [contains, Table.contains, hMember]
    rw [leave_eq_self hNot]
    refine (List.filter_eq_self.2 fun w hw => ?_).symm
    have hOther : w.member ≠ ⟨id, i⟩ := by
      intro hSame
      rw [(contains_iff h id i).2 ⟨w, hw, hSame⟩] at hNot
      cases hNot
    simpa using hOther
  | some place =>
    simp only [leave, hMember, toList, Table.erase, Table.filter, List.filter_map]
    congr 1
    refine List.filter_congr fun e he => ?_
    have hEntry := (Table.mem_entries_iff _ _ _).1 he
    have hOwn := (h.inverse ⟨id, i⟩ place).1 hMember
    -- The place tells the member and the member tells the place.
    have hSame : e.1 = place ↔ (⟨e.2, e.1.major⟩ : Member) = ⟨id, i⟩ := by
      constructor
      · rintro rfl
        rw [hEntry, Option.some.injEq] at hOwn
        rw [hOwn.1, hOwn.2]
      · intro hSame
        have hPlace := (h.inverse ⟨e.2, e.1.major⟩ e.1).2 ⟨hEntry, rfl⟩
        rw [hSame, hMember, Option.some.injEq] at hPlace
        exact hPlace.symm
    simp [Waiter.member, hSame]

end Sound

/-! ## Taking from the front -/

theorem next?_eq_none_iff (l : WaitingLine) : l.next? = none ↔ l.toList = [] := by
  rw [next?, Option.map_eq_none_iff, Table.popFirst?_eq_none_iff, toList, List.map_eq_nil_iff]

theorem toList_of_next?_eq_some {l rest : WaitingLine} {w : Waiter} (hNext : l.next? = some (w, rest)) :
    l.toList = w :: rest.toList := by
  obtain ⟨⟨⟨place, id⟩, others⟩, hPop, hw⟩ := Option.map_eq_some_iff.1 hNext
  rw [Table.popFirst?_eq_some_iff] at hPop
  simp only [Prod.mk.injEq] at hw
  obtain ⟨rfl, rfl⟩ := hw
  simp [toList, hPop]

/-- To take the first is to let it leave. -/
theorem leave_of_next?_eq_some {l rest : WaitingLine} {w : Waiter} (h : l.Sound)
    (hNext : l.next? = some (w, rest)) : rest = (l.leave w.container w.imbalance).2 := by
  obtain ⟨⟨⟨place, id⟩, others⟩, hPop, hw⟩ := Option.map_eq_some_iff.1 hNext
  rw [Table.popFirst?_eq_some_iff] at hPop
  simp only [Prod.mk.injEq] at hw
  obtain ⟨rfl, rfl⟩ := hw
  have hEntry : l.ordered.get? place = some id :=
    (Table.mem_entries_iff _ _ _).1 (hPop ▸ List.mem_cons_self)
  have hMember := (h.inverse ⟨id, place.major⟩ place).2 ⟨hEntry, rfl⟩
  simp [leave, hMember, Table.eq_erase_of_entries_eq_cons hPop]

theorem batch_fst (n : Nat) (l : WaitingLine) : (batch n l).1 = l.toList.take n := by
  induction n generalizing l with
  | zero => rfl
  | succ n ih =>
    rw [batch]
    split
    · rename_i hNext
      rw [(next?_eq_none_iff l).1 hNext, List.take_nil]
    · rename_i w rest hNext
      rw [toList_of_next?_eq_some hNext, List.take_succ_cons, ← ih]

theorem toList_batch (n : Nat) (l : WaitingLine) : (batch n l).2.toList = l.toList.drop n := by
  induction n generalizing l with
  | zero => rfl
  | succ n ih =>
    rw [batch]
    split
    · rename_i hNext
      rw [(next?_eq_none_iff l).1 hNext, List.drop_nil]
    · rename_i w rest hNext
      rw [toList_of_next?_eq_some hNext, List.drop_succ_cons, ← ih]

theorem sound_batch (n : Nat) {l : WaitingLine} (h : l.Sound) : (batch n l).2.Sound := by
  induction n generalizing l with
  | zero => exact h
  | succ n ih =>
    rw [batch]
    split
    · exact h
    · rename_i w rest hNext
      have hRest : rest.Sound := by
        rw [leave_of_next?_eq_some h hNext]
        exact sound_leave h _ _
      exact ih hRest

end WaitingLine

end ReplicaUpkeep
