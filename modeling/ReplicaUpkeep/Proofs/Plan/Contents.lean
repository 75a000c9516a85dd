import ReplicaUpkeep.Proofs.Plan.Lineages

/-!
# The data that deletes leave

Empty replicas go first, but two rules are stronger: one good holder of the highest sequence always
stays, and the best replica of an origin goes only when no spare one is left.  The best is told by the
sequence before it is told by having data.  So a replica with data can go before an empty one that is
ahead of it, and it may be the last that had any.

Where every replica is within reach it can be said exactly when this happens.  What stays is one last
holder of the highest sequence and the back of the order of deletion.  Both halves of that order have
their empty replicas in front, so what is at the back has data as soon as anything in the half has.
-/

namespace ReplicaUpkeep

namespace Replica

/-- The replica is good and not empty. -/
def CarriesData (r : Replica) : Prop :=
  r.state ∈ ReplicaState.good ∧ r.isEmpty = false

instance (r : Replica) : Decidable r.CarriesData :=
  inferInstanceAs (Decidable (_ ∧ _))

/-- The replica is the best of its origin. -/
def Leads (r : Replica) (replicas : List Replica) : Prop :=
  ∃ origin, r.IsBestOf origin replicas

end Replica

namespace Plan

/-- Why some of the replicas that stay have data, if so many are wanted. -/
inductive LeavesData (l : List Replica) (maxSequence : UInt64) (wanted : Nat) : Prop where
  /-- The holder of the highest sequence that stays has data.  It is the best of its origin, unless no
  holder is. -/
  | latest (r : Replica) (hr : r ∈ l) (hMax : r.sequence = maxSequence) (hData : r.isEmpty = false)
      (hLast : r.Leads l ∨ ∀ q ∈ l, q.sequence = maxSequence → ¬ q.Leads l)
  /-- The best replica of some origin has data, and there is a place for it beside that holder. -/
  | best (r : Replica) (hBest : r.Leads l) (hData : r.isEmpty = false)
      (hPlace : (∃ q ∈ l, q.sequence = maxSequence) → 2 ≤ wanted)
  /-- There is a place beside the best replicas of all origins and that holder. -/
  | room (hRoom : lineages l < wanted)
      (hPlace : (∃ q ∈ l, q.sequence = maxSequence) →
        (∃ q ∈ l, q.sequence = maxSequence ∧ q.Leads l) ∨ lineages l + 1 < wanted)

/-! ## Empty replicas in front -/

/-- No empty replica stands behind one with data. -/
def EmptyFirst (l : List Replica) : Prop :=
  l.Pairwise fun a b => b.isEmpty = true → a.isEmpty = true

theorem EmptyFirst.sublist {l m : List Replica} (h : EmptyFirst l) (hSub : m.Sublist l) :
    EmptyFirst m :=
  List.Pairwise.sublist hSub h

/-- The order of deletion takes empty replicas first. -/
theorem emptyFirst_sortBy (l : List Replica) : EmptyFirst (Order.sortBy goesBefore l) := by
  have hTrans : ∀ a b c, goesBefore a b = true → goesBefore b c = true → goesBefore a c = true := by
    intro a b c
    unfold goesBefore
    grind
  have hTotal : ∀ a b, goesBefore a b = true ∨ goesBefore b a = true := by
    intro a b
    unfold goesBefore
    grind
  refine (Order.pairwise_sortBy goesBefore hTrans hTotal l).imp fun {a b} hBefore hEmpty => ?_
  unfold goesBefore at hBefore
  grind

theorem emptyFirst_spares (l : List Replica) : EmptyFirst (spares l) :=
  (emptyFirst_sortBy l).sublist List.filter_sublist

theorem emptyFirst_leaders (l : List Replica) : EmptyFirst (leaders l) :=
  (emptyFirst_sortBy l).sublist List.filter_sublist

/-- Such a list without one of its members. -/
theorem EmptyFirst.passing {l front back : List Replica} {h : Replica} (hFirst : EmptyFirst l)
    (hSplit : l = front ++ h :: back) :
    EmptyFirst (front ++ back) ∧ l.length = (front ++ back).length + 1 ∧
      ∀ r, r ∈ l ↔ r = h ∨ r ∈ front ++ back := by
  subst hSplit
  refine ⟨hFirst.sublist ((List.sublist_cons_self h back).append_left front), ?_, fun r => ?_⟩
  · simp [Nat.add_assoc]
  · simp only [List.mem_append, List.mem_cons]
    tauto

/-- The back of such a list has data as soon as any of the list has. -/
theorem exists_data_drop_iff {l : List Replica} (h : EmptyFirst l) (n : Nat) :
    (∃ r ∈ l.drop n, r.isEmpty = false) ↔ (∃ r ∈ l, r.isEmpty = false) ∧ n < l.length := by
  induction l generalizing n with
  | nil => simp
  | cons q rest ih =>
    rw [EmptyFirst, List.pairwise_cons] at h
    cases n with
    | zero => simp
    | succ n =>
      rw [List.drop_succ_cons, ih h.2, List.length_cons, Nat.add_lt_add_iff_right]
      refine and_congr_left fun hBack => ⟨fun ⟨r, hr, hData⟩ => ⟨r, .tail _ hr, hData⟩, ?_⟩
      rintro ⟨r, hr, hData⟩
      rcases List.mem_cons.1 hr with rfl | hRest
      · -- Whatever stands behind the first has data as well.
        obtain ⟨b, hb⟩ := List.exists_mem_of_length_pos (Nat.zero_lt_of_lt hBack)
        refine ⟨b, hb, Bool.eq_false_iff.2 fun hEmpty => ?_⟩
        rw [h.1 b hb hEmpty] at hData
        cases hData
      · exact ⟨r, hRest, hData⟩

/-- Of two such halves the second one has the places at the back. -/
theorem exists_data_drop_append_iff {front back : List Replica} (hFront : EmptyFirst front)
    (hBack : EmptyFirst back) (n : Nat) :
    (∃ r ∈ (front ++ back).drop n, r.isEmpty = false) ↔
      ((∃ r ∈ back, r.isEmpty = false) ∧ n < front.length + back.length) ∨
        ((∃ r ∈ front, r.isEmpty = false) ∧ n < front.length) := by
  have hSplit : (∃ r ∈ (front ++ back).drop n, r.isEmpty = false) ↔
      (∃ r ∈ front.drop n, r.isEmpty = false) ∨
        ∃ r ∈ back.drop (n - front.length), r.isEmpty = false := by
    simp only [List.drop_append, List.mem_append, or_and_right, exists_or]
  rw [hSplit, exists_data_drop_iff hFront, exists_data_drop_iff hBack, or_comm]
  by_cases hAny : ∃ r ∈ back, r.isEmpty = false
  · obtain ⟨r, hr, -⟩ := hAny
    have hSome := List.length_pos_of_mem hr
    have hPlace : n - front.length < back.length ↔ n < front.length + back.length := by omega
    rw [hPlace]
  · simp [hAny]

/-- The last holder of a sequence has data if any holder has. -/
theorem exists_last_holder {l : List Replica} (h : EmptyFirst l) {maxSequence : UInt64}
    (hHeld : ∃ r ∈ l, r.sequence = maxSequence) :
    ∃ front r back, l = front ++ r :: back ∧ r.sequence = maxSequence ∧
      back.countP (fun q => q.sequence = maxSequence) = 0 ∧
      (r.isEmpty = false ↔ ∃ q ∈ l, q.sequence = maxSequence ∧ q.isEmpty = false) := by
  induction l with
  | nil => simp at hHeld
  | cons q rest ih =>
    rw [EmptyFirst, List.pairwise_cons] at h
    by_cases hRest : ∃ r ∈ rest, r.sequence = maxSequence
    · obtain ⟨front, r, back, rfl, hMax, hBack, hData⟩ := ih h.2 hRest
      refine ⟨q :: front, r, back, rfl, hMax, hBack, hData.trans ⟨?_, ?_⟩⟩
      · exact fun ⟨d, hd, hHolder⟩ => ⟨d, .tail _ hd, hHolder⟩
      · rintro ⟨d, hd, hHolder⟩
        rcases List.mem_cons.1 hd with rfl | hLater
        · -- A holder with data in front has only replicas with data behind it.
          refine hData.1 (Bool.eq_false_iff.2 fun hEmpty => ?_)
          rw [h.1 r (by simp) hEmpty] at hHolder
          cases hHolder.2
        · exact ⟨d, hLater, hHolder⟩
    · have hNobody : ∀ r ∈ rest, r.sequence ≠ maxSequence := fun r hr hMax => hRest ⟨r, hr, hMax⟩
      have hFirst : q.sequence = maxSequence := by
        obtain ⟨r, hr, hMax⟩ := hHeld
        rcases List.mem_cons.1 hr with rfl | hLater
        · exact hMax
        · exact absurd hMax (hNobody r hLater)
      refine ⟨[], q, rest, rfl, hFirst, List.countP_eq_zero.2 (by simpa using hNobody), ?_⟩
      constructor
      · exact fun hData => ⟨q, List.mem_cons_self, hFirst, hData⟩
      · rintro ⟨d, hd, hMax, hData⟩
        rcases List.mem_cons.1 hd with rfl | hLater
        · exact hData
        · exact absurd hMax (hNobody d hLater)

/-! ## What is left of the order of deletion -/

/-- Only the last holder is passed over: the others go in their order. -/
theorem choose_append_cons {maxSequence : UInt64} {front back : List Replica} {r : Replica}
    (hMax : r.sequence = maxSequence)
    (hBack : back.countP (fun q => q.sequence = maxSequence) = 0) (n : Nat) :
    choose maxSequence n ((front ++ r :: back).countP fun q => q.sequence = maxSequence)
      (front ++ r :: back) = (front ++ back).take n := by
  have hHolders : (front ++ r :: back).countP (fun q => q.sequence = maxSequence) =
      front.countP (fun q => q.sequence = maxSequence) + 1 := by
    rw [List.countP_append, List.countP_cons_of_pos (by simpa using hMax), hBack]
  rw [hHolders, choose_append (.inr (Nat.lt_succ_self _)), Nat.succ_sub (Nat.le_refl _),
    Nat.sub_self, List.take_append]
  congr 1
  cases n - front.length with
  | zero => simp [choose]
  | succ k => rw [choose, if_pos hMax, if_pos (Nat.le_refl 1), choose_eq_take (.inl hBack)]

/-- As many replicas are the best of an origin as there are origins. -/
theorem length_leaders {l : List Replica} (hNodes : (l.map Replica.node).Nodup) :
    (leaders l).length = lineages l := by
  have hKnown : ∀ r ∈ leaders l, r.origin ≠ none := by
    intro r hr
    obtain ⟨origin, hBest⟩ := (mem_leaders hNodes r).1 hr
    rw [hBest.own]
    exact Option.some_ne_none origin
  have hDistinct : (leaders l).Nodup :=
    ((Order.perm_sortBy goesBefore l).nodup_iff.2 hNodes.of_map).filter _
  have hApart : ((leaders l).filterMap Replica.origin).Nodup :=
    nodup_origin_of_isBestOf hNodes hDistinct fun r hr origin hOrigin =>
      isBestOf_of_mem_leaders hNodes hr hOrigin
  rw [← lineages_eq_length hKnown hApart]
  refine Nat.le_antisymm (lineages_le_of_subset ?_) (lineages_le_of_subset ?_)
  · intro origin h
    obtain ⟨r, hr, hOrigin⟩ := List.mem_filterMap.1 h
    exact List.mem_filterMap.2 ⟨r, (isBestOf_of_mem_leaders hNodes hr hOrigin).mem, hOrigin⟩
  · intro origin h
    obtain ⟨q, hq, hOrigin⟩ := List.mem_filterMap.1 h
    obtain ⟨r, hBest⟩ := exists_isBestOf hq hOrigin
    exact List.mem_filterMap.2 ⟨r, (mem_leaders hNodes r).2 ⟨origin, hBest⟩, hBest.own⟩

theorem length_spares_add_length_leaders (l : List Replica) :
    (spares l).length + (leaders l).length = l.length := by
  rw [← List.length_append, ← deletionOrder_eq_append, (deletionOrder_perm l).length_eq]

theorem mem_spares_or_mem_leaders {l : List Replica} {r : Replica} (hr : r ∈ l) :
    r ∈ spares l ∨ r ∈ leaders l := by
  rwa [← List.mem_append, ← deletionOrder_eq_append, (deletionOrder_perm l).mem_iff]

section Left

variable {l : List Replica} (hNodes : (l.map Replica.node).Nodup) {maxSequence : UInt64}
  {n wanted : Nat} (hLength : n + wanted = l.length) (hWanted : 1 ≤ wanted)
  (hData : ∃ r ∈ l, r.isEmpty = false)
include hNodes hLength hWanted hData

/-- Where nobody holds the highest sequence, the back of the order stays as it is. -/
theorem exists_data_left_of_no_holder (hNobody : ∀ r ∈ l, r.sequence ≠ maxSequence) :
    (∃ r ∈ (spares l ++ leaders l).drop n, r.isEmpty = false) ↔
      LeavesData l maxSequence wanted := by
  have hHalves := length_spares_add_length_leaders l
  have hLineages := length_leaders hNodes
  have hVacuous : ¬ ∃ r ∈ l, r.sequence = maxSequence := fun ⟨r, hr, hMax⟩ => hNobody r hr hMax
  rw [exists_data_drop_append_iff (emptyFirst_spares l) (emptyFirst_leaders l)]
  -- A place in the front half is one beside all leaders, of which there is one for each origin.
  constructor
  · rintro (⟨⟨r, hr, hFilled⟩, -⟩ | ⟨-, hPlace⟩)
    · exact .best r ((mem_leaders hNodes r).1 hr) hFilled fun h => absurd h hVacuous
    · exact .room (by omega) fun h => absurd h hVacuous
  · rintro (⟨r, hr, hMax, -, -⟩ | ⟨r, hBest, hFilled, -⟩ | ⟨hRoom, -⟩)
    · exact absurd hMax (hNobody r hr)
    · exact .inl ⟨⟨r, (mem_leaders hNodes r).2 hBest, hFilled⟩, by omega⟩
    · obtain ⟨r, hr, hFilled⟩ := hData
      rcases mem_spares_or_mem_leaders hr with hSpare | hLeader
      · exact .inr ⟨⟨r, hSpare, hFilled⟩, by omega⟩
      · exact .inl ⟨⟨r, hLeader, hFilled⟩, by omega⟩

/-- Where the last holder is the best of its origin, it stays before all others. -/
theorem exists_data_left_of_leader {front back : List Replica} {h : Replica}
    (hLeaders : leaders l = front ++ h :: back) (hMax : h.sequence = maxSequence)
    (hLast : h.isEmpty = false ↔ ∃ q ∈ leaders l, q.sequence = maxSequence ∧ q.isEmpty = false) :
    (∃ r ∈ h :: (spares l ++ (front ++ back)).drop n, r.isEmpty = false) ↔
      LeavesData l maxSequence wanted := by
  have hHalves := length_spares_add_length_leaders l
  have hLineages := length_leaders hNodes
  obtain ⟨hOrder, hFewer, hMem⟩ := (emptyFirst_leaders l).passing hLeaders
  have hHolder : h ∈ l ∧ h.Leads l := by
    have hLead := (mem_leaders hNodes h).1 ((hMem h).2 (.inl rfl))
    exact ⟨hLead.choose_spec.mem, hLead⟩
  rw [List.exists_mem_cons_iff,
    exists_data_drop_append_iff (emptyFirst_spares l) hOrder]
  -- The last holder has taken one of the places that are wanted; it is a leader itself.
  constructor
  · rintro (hFilled | ⟨⟨r, hr, hFilled⟩, hPlace⟩ | ⟨-, hPlace⟩)
    · exact .latest h hHolder.1 hMax hFilled (.inl hHolder.2)
    · exact .best r ((mem_leaders hNodes r).1 ((hMem r).2 (.inr hr))) hFilled fun _ => by omega
    · exact .room (by omega) fun _ => .inl ⟨h, hHolder.1, hMax, hHolder.2⟩
  · rintro (⟨r, hr, hTop, hFilled, hLead | hNone⟩ | ⟨r, hBest, hFilled, hPlace⟩ | ⟨hRoom, -⟩)
    · exact .inl (hLast.2 ⟨r, (mem_leaders hNodes r).2 hLead, hTop, hFilled⟩)
    · exact absurd hHolder.2 (hNone h hHolder.1 hMax)
    · have hTwo := hPlace ⟨h, hHolder.1, hMax⟩
      rcases (hMem r).1 ((mem_leaders hNodes r).2 hBest) with rfl | hOther
      · exact .inl hFilled
      · exact .inr (.inl ⟨⟨r, hOther, hFilled⟩, by omega⟩)
    · obtain ⟨r, hr, hFilled⟩ := hData
      rcases mem_spares_or_mem_leaders hr with hSpare | hLeader
      · exact .inr (.inr ⟨⟨r, hSpare, hFilled⟩, by omega⟩)
      · rcases (hMem r).1 hLeader with rfl | hOther
        · exact .inl hFilled
        · have hSome := List.length_pos_of_mem hOther
          exact .inr (.inl ⟨⟨r, hOther, hFilled⟩, by omega⟩)

/-- Where no holder is the best of an origin, the last of them stays beside those that are. -/
theorem exists_data_left_of_spare {front back : List Replica} {h : Replica}
    (hSpares : spares l = front ++ h :: back) (hMax : h.sequence = maxSequence)
    (hNone : ∀ q ∈ leaders l, q.sequence ≠ maxSequence)
    (hLast : h.isEmpty = false ↔ ∃ q ∈ spares l, q.sequence = maxSequence ∧ q.isEmpty = false) :
    (∃ r ∈ h :: ((front ++ back) ++ leaders l).drop n, r.isEmpty = false) ↔
      LeavesData l maxSequence wanted := by
  have hHalves := length_spares_add_length_leaders l
  have hLineages := length_leaders hNodes
  obtain ⟨hOrder, hFewer, hMem⟩ := (emptyFirst_spares l).passing hSpares
  have hHolder : h ∈ l := ((mem_spares l h).1 ((hMem h).2 (.inl rfl))).1
  have hNobody : ∀ q ∈ l, q.sequence = maxSequence → ¬ q.Leads l := fun q _ hTop hLead =>
    hNone q ((mem_leaders hNodes q).2 hLead) hTop
  rw [List.exists_mem_cons_iff,
    exists_data_drop_append_iff hOrder (emptyFirst_leaders l)]
  -- The last holder has taken one of the places that are wanted, and the leaders are still all there.
  constructor
  · rintro (hFilled | ⟨⟨r, hr, hFilled⟩, hPlace⟩ | ⟨-, hPlace⟩)
    · exact .latest h hHolder hMax hFilled (.inr hNobody)
    · exact .best r ((mem_leaders hNodes r).1 hr) hFilled fun _ => by omega
    · exact .room (by omega) fun _ => .inr (by omega)
  · rintro (⟨r, hr, hTop, hFilled, -⟩ | ⟨r, hBest, hFilled, hPlace⟩ | ⟨hRoom, hPlace⟩)
    · rcases mem_spares_or_mem_leaders hr with hSpare | hLeader
      · exact .inl (hLast.2 ⟨r, hSpare, hTop, hFilled⟩)
      · exact absurd hTop (hNone r hLeader)
    · have hTwo := hPlace ⟨h, hHolder, hMax⟩
      exact .inr (.inl ⟨⟨r, (mem_leaders hNodes r).2 hBest, hFilled⟩, by omega⟩)
    · have hMore : lineages l + 1 < wanted := by
        refine (hPlace ⟨h, hHolder, hMax⟩).resolve_left ?_
        exact fun ⟨q, hq, hTop, hLead⟩ => hNobody q hq hTop hLead
      obtain ⟨r, hr, hFilled⟩ := hData
      rcases mem_spares_or_mem_leaders hr with hSpare | hLeader
      · rcases (hMem r).1 hSpare with rfl | hOther
        · exact .inl hFilled
        · exact .inr (.inr ⟨⟨r, hOther, hFilled⟩, by omega⟩)
      · exact .inr (.inl ⟨⟨r, hLeader, hFilled⟩, by omega⟩)

end Left

section Passing

variable {l : List Replica} (hNodes : (l.map Replica.node).Nodup) {maxSequence : UInt64}
include hNodes

/-- When one is passed over and the order goes on behind it, that one and the back are left. -/
theorem mem_left_passing_iff {front back : List Replica} {h : Replica}
    (hOrder : deletionOrder l = front ++ h :: back) (n : Nat) (r : Replica) :
    r ∈ h :: (front ++ back).drop n ↔ r ∈ l ∧ r ∉ (front ++ back).take n := by
  have hSplit : ((front ++ back).take n ++ h :: (front ++ back).drop n).Perm l := by
    refine List.perm_middle.trans ?_
    rw [List.take_append_drop]
    refine List.perm_middle.symm.trans ?_
    rw [← hOrder]
    exact deletionOrder_perm l
  exact mem_left_iff hNodes hSplit r

/-- Where the last holder of all is passed over, it and the back of the order are left. -/
theorem exists_data_kept_iff {front back : List Replica} {h : Replica}
    (hOrder : deletionOrder l = front ++ h :: back) (hMax : h.sequence = maxSequence)
    (hBack : back.countP (fun q => q.sequence = maxSequence) = 0) (n : Nat) :
    (∃ r ∈ l, r ∉ choose maxSequence n (l.countP fun q => q.sequence = maxSequence)
        (deletionOrder l) ∧ r.isEmpty = false) ↔
      ∃ r ∈ h :: (front ++ back).drop n, r.isEmpty = false := by
  rw [← (deletionOrder_perm l).countP_eq, hOrder, choose_append_cons hMax hBack]
  simp only [mem_left_passing_iff hNodes hOrder, and_assoc]

/-- Of the replicas that may be deleted some with data stay exactly for the reasons above. -/
theorem exists_data_left_iff {n wanted : Nat} (hLength : n + wanted = l.length)
    (hWanted : 1 ≤ wanted) (hData : ∃ r ∈ l, r.isEmpty = false) :
    (∃ r ∈ l, r ∉ choose maxSequence n (l.countP fun q => q.sequence = maxSequence)
        (deletionOrder l) ∧ r.isEmpty = false) ↔
      LeavesData l maxSequence wanted := by
  -- Leaders go last, so the last holder is a leader if any of them holds the sequence.
  by_cases hLeader : ∃ r ∈ leaders l, r.sequence = maxSequence
  · obtain ⟨front, h, back, hLeaders, hMax, hBack, hLast⟩ :=
      exists_last_holder (emptyFirst_leaders l) hLeader
    have hOrder : deletionOrder l = (spares l ++ front) ++ h :: back := by
      rw [deletionOrder_eq_append, hLeaders, List.append_assoc]
    rw [exists_data_kept_iff hNodes hOrder hMax hBack, List.append_assoc]
    exact exists_data_left_of_leader hNodes hLength hWanted hData hLeaders hMax hLast
  · have hNone : ∀ q ∈ leaders l, q.sequence ≠ maxSequence := fun q hq hTop => hLeader ⟨q, hq, hTop⟩
    by_cases hSpare : ∃ r ∈ spares l, r.sequence = maxSequence
    · obtain ⟨front, h, back, hSpares, hMax, hBack, hLast⟩ :=
        exists_last_holder (emptyFirst_spares l) hSpare
      have hOrder : deletionOrder l = front ++ h :: (back ++ leaders l) := by
        rw [deletionOrder_eq_append, hSpares, List.append_assoc, List.cons_append]
      have hBehind : (back ++ leaders l).countP (fun q => q.sequence = maxSequence) = 0 := by
        rw [List.countP_append, hBack, Nat.zero_add]
        exact List.countP_eq_zero.2 fun q hq => by simpa using hNone q hq
      rw [exists_data_kept_iff hNodes hOrder hMax hBehind, ← List.append_assoc]
      exact exists_data_left_of_spare hNodes hLength hWanted hData hSpares hMax hNone hLast
    · have hNobody : ∀ r ∈ l, r.sequence ≠ maxSequence := fun r hr hTop =>
        (mem_spares_or_mem_leaders hr).elim (fun h => hSpare ⟨r, h, hTop⟩) fun h => hNone r h hTop
      have hCount : (deletionOrder l).countP (fun q => q.sequence = maxSequence) = 0 := by
        rw [(deletionOrder_perm l).countP_eq]
        exact List.countP_eq_zero.2 fun r hr => by simpa using hNobody r hr
      have hSplit : ((deletionOrder l).take n ++ (deletionOrder l).drop n).Perm l := by
        rw [List.take_append_drop]
        exact deletionOrder_perm l
      rw [choose_eq_take (.inl hCount),
        ← exists_data_left_of_no_holder hNodes hLength hWanted hData hNobody,
        ← deletionOrder_eq_append]
      simp only [mem_left_iff hNodes hSplit, and_assoc]

end Passing

end Plan

namespace Snapshot

variable {s : Snapshot} {lookup : NodeLookup}

/-- Where nobody writes and every node is within reach, all good replicas may be deleted. -/
theorem deletable_eq_select (hQuiet : ∀ r ∈ s.replicas, r.state ∉ ReplicaState.writable)
    (hReach : ∀ r ∈ s.replicas, lookup.Reaches r.node) : s.deletable lookup = s.select .good := by
  refine List.filter_congr fun r hr => ?_
  rw [Bool.eq_iff_iff, decide_eq_true_eq, Selector.good, Selector.selects_inStates_iff]
  exact ⟨fun h => ReplicaState.mem_good_of_mem_sealed h.1,
    fun h => ⟨ReplicaState.mem_sealed_of_mem_good (hQuiet r hr) h, hReach r hr⟩⟩

theorem latestHolders_eq_countP_good :
    Plan.latestHolders s = (s.select .good).countP fun r => r.sequence = s.maxSequence := by
  rw [latestHolders_eq_countP, select, List.countP_filter]
  refine List.countP_congr fun r _ => ?_
  rw [Bool.and_eq_true, Selector.good, Selector.selects_inStates_iff, decide_eq_true_eq,
    decide_eq_true_eq, IsLatestHolder, and_comm]

/-- The deletes of a snapshot are those of its good replicas. -/
theorem exists_data_pruned_iff (hMay : s.MayDelete) (hNodes : (s.replicas.map Replica.node).Nodup)
    (hFactor : 1 ≤ s.factor) (hReach : ∀ r ∈ s.replicas, lookup.Reaches r.node)
    (hData : ∃ r ∈ s.replicas, r.CarriesData) :
    (∃ r ∈ (s.pruned lookup).replicas, r.CarriesData) ↔
      Plan.LeavesData (s.select .good) s.maxSequence s.factor := by
  obtain ⟨hStage, hQuiet, -⟩ := mayDelete_iff.1 hMay
  have hMem : ∀ r, r ∈ s.select .good ↔ r ∈ s.replicas ∧ r.state ∈ ReplicaState.good := fun r =>
    s.mem_select_inStates ReplicaState.good r
  have hGoodNodes : ((s.select .good).map Replica.node).Nodup :=
    hNodes.sublist (List.filter_sublist.map _)
  have hLength : s.capacity.excess + s.factor = (s.select .good).length :=
    Nat.sub_add_cancel (Nat.le_of_lt hMay.excess)
  have hFilled : ∃ r ∈ s.select .good, r.isEmpty = false := by
    obtain ⟨r, hr, hGood, hSome⟩ := hData
    exact ⟨r, (hMem r).2 ⟨hr, hGood⟩, hSome⟩
  rw [← Plan.exists_data_left_iff hGoodNodes hLength hFactor hFilled]
  have hGone : s.dueToDelete lookup = Plan.choose s.maxSequence s.capacity.excess
      ((s.select .good).countP fun r => r.sequence = s.maxSequence)
      (Plan.deletionOrder (s.select .good)) := by
    rw [dueToDelete_eq_chosen hStage hQuiet, Plan.chosen, candidates_eq_deletable,
      deletable_eq_select hMay.quiet hReach, latestHolders_eq_countP_good]
  rw [← hGone]
  simp only [s.mem_pruned lookup hNodes, hMem, Replica.CarriesData]
  refine exists_congr fun r => ?_
  tauto

end Snapshot

/-- Some good replica with data stays exactly when it has a reason to.  Where nodes are distinct and
all within reach and some good replica has data, one that has is left by the deletes of a plan exactly
when nothing may be deleted, or the holder of the highest sequence that stays has data, or the best
replica of some origin has and there is a second place for it, or there is a place beside the best
replicas of all origins. -/
theorem data_outlasts_deletes (s : Snapshot) (lookup : NodeLookup)
    (hNodes : (s.replicas.map Replica.node).Nodup)
    (hStage : s.container.state = .quasiClosed ∨ s.container.state = .closed)
    (hFactor : 1 ≤ s.factor) (hReach : ∀ r ∈ s.replicas, lookup.Reaches r.node)
    (hData : ∃ r ∈ s.replicas, r.CarriesData) :
    (∃ r ∈ (s.pruned lookup).replicas, r.CarriesData) ↔
      s.count .good ≤ s.factor ∨ (∃ r ∈ s.replicas, r.state ∈ ReplicaState.writable) ∨
        Plan.LeavesData (s.select .good) s.maxSequence s.factor := by
  by_cases hMay : s.MayDelete
  · have hMore : ¬ s.count .good ≤ s.factor := Nat.not_le.2 hMay.excess
    have hQuiet : ¬ ∃ r ∈ s.replicas, r.state ∈ ReplicaState.writable :=
      fun ⟨r, hr, hWrites⟩ => hMay.quiet r hr hWrites
    rw [Snapshot.exists_data_pruned_iff hMay hNodes hFactor hReach hData]
    simp only [hMore, hQuiet, false_or]
  · rw [s.pruned_eq_self lookup (Snapshot.dueToDelete_eq_nil_of_not_mayDelete lookup hMay)]
    refine iff_of_true hData ?_
    by_contra hNone
    obtain ⟨hMore, hQuiet, -⟩ := by simpa only [not_or] using hNone
    exact hMay ⟨hStage, fun r hr hWrites => hQuiet ⟨r, hr, hWrites⟩, Nat.lt_of_not_le hMore⟩

/-- The holder of the highest sequence is empty and so are all spare replicas; two of five stay, and
the second place goes to the data of the origin that lags behind. -/
theorem data_outlasts_deletes_of_five :
    let s := Snapshot.of ⟨⟨1⟩, .closed, 2, 10⟩
      [⟨"a", .closed, 10, some "a", true⟩, ⟨"b", .closed, 10, some "a", true⟩,
        ⟨"c", .closed, 9, some "c", true⟩, ⟨"d", .quasiClosed, 5, some "d", false⟩,
        ⟨"e", .closed, 4, some "d", false⟩]
    let lookup : NodeLookup := fun _ => some ⟨.inService, .healthy, none⟩
    (s.replicas.map Replica.node).Nodup ∧ 1 ≤ s.factor ∧
      (∀ r ∈ s.replicas, lookup.Reaches r.node) ∧ (∃ r ∈ s.replicas, r.CarriesData) ∧
      ((s.evaluate lookup).ofKind .delete).length = 3 ∧
      ∃ r ∈ (s.pruned lookup).replicas, r.CarriesData := by
  intro s lookup
  have hNodes : (s.replicas.map Replica.node).Nodup := by decide
  have hReach : ∀ r ∈ s.replicas, lookup.Reaches r.node := by decide
  have hData : ∃ r ∈ s.replicas, r.CarriesData := by decide
  have hBest : (⟨"d", .quasiClosed, 5, some "d", false⟩ : Replica).Leads (s.select .good) :=
    ⟨"d", by decide, rfl, by decide⟩
  refine ⟨hNodes, by decide, hReach, hData, by decide, ?_⟩
  exact (data_outlasts_deletes s lookup hNodes (.inr rfl) (by decide) hReach hData).2
    (.inr (.inr (.best _ hBest rfl fun _ => Nat.le_refl 2)))

/-- Without a reason the data goes.  One of two closed replicas is wanted; the empty one has the highest
sequence and stays, and the other one had all the data there was. -/
theorem last_data_deleted_behind_empty :
    ¬ ∀ (s : Snapshot) (lookup : NodeLookup),
      (s.replicas.map Replica.node).Nodup →
        (s.container.state = .quasiClosed ∨ s.container.state = .closed) → 1 ≤ s.factor →
          (∀ r ∈ s.replicas, lookup.Reaches r.node) → (∃ r ∈ s.replicas, r.CarriesData) →
            ∃ r ∈ (s.pruned lookup).replicas, r.CarriesData := by
  intro hAlways
  let s := Snapshot.of ⟨⟨1⟩, .closed, 1, 10⟩
    [⟨"a", .closed, 10, some "a", true⟩, ⟨"b", .closed, 5, some "b", false⟩]
  let lookup : NodeLookup := fun _ => some ⟨.inService, .healthy, none⟩
  have hGone : ¬ ∃ r ∈ (s.pruned lookup).replicas, r.CarriesData := by decide
  exact hGone (hAlways s lookup (by decide) (.inr rfl) (by decide) (by decide) (by decide))

end ReplicaUpkeep
