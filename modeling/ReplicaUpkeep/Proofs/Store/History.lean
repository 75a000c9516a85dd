import ReplicaUpkeep.Proofs.Store.Run

/-!
# What a history keeps

Reports may lack their sequence or their origin, in any pattern.  The record carries over the last
value of each that was given, and a report is accepted only if it agrees with these.  So the sequences
that are given never go back and the origins that are given are all one, however many reports that
give neither stand in between.  Both facts are one argument: a list whose last member bounds it stays
so when the next member is compared with the last one only.
-/

namespace ReplicaUpkeep

/-! ## Carrying over the last given value -/

namespace Record

/-- A field that a report sets where it gives one, and leaves alone otherwise, holds the value that
was given last. -/
theorem bind_afterReports {β : Type} (given : Report → Option β) (kept : Record → Option β)
    (hStep : ∀ old r, kept (ofReport old r) = (given r <|> old.bind kept)) (reports : List Report)
    (old : Option Record) :
    (afterReports old reports).bind kept =
      ((reports.filterMap given).getLast? <|> old.bind kept) := by
  -- The first report makes the record that the others are taken into, so that record varies.
  induction reports generalizing old with
  | nil => rfl
  | cons r rest ih =>
    rw [afterReports, List.foldl_cons, ← afterReports, ih, Option.bind_some, hStep,
      List.filterMap_cons]
    cases hGiven : given r with
    | none => simp
    | some b =>
      cases hRest : (rest.filterMap given).getLast? <;> simp [List.getLast?_cons, hRest]

theorem sequence_afterReports (reports : List Report) :
    (afterReports none reports).bind Record.sequence =
      (reports.filterMap Report.sequence).getLast? := by
  simpa using bind_afterReports Report.sequence Record.sequence (fun _ _ => rfl) reports none

theorem origin_afterReports (reports : List Report) :
    (afterReports none reports).bind Record.origin =
      (reports.filterMap Report.origin).getLast? := by
  simpa using bind_afterReports Report.origin Record.origin (fun _ _ => rfl) reports none

/-- Everything else in a record comes from the last report. -/
theorem afterReports_of_getLast? {reports : List Report} {last : Report}
    (h : reports.getLast? = some last) :
    ∃ old, afterReports none reports = some (ofReport old last) := by
  obtain ⟨earlier, rfl⟩ := List.getLast?_eq_some_iff.1 h
  exact ⟨afterReports none earlier, by rw [afterReports_append]; rfl⟩

/-- A report is without fault when it moves neither the sequence back nor the origin. -/
theorem fault?_eq_none_iff (old : Record) (r : Report) :
    old.fault? r = none ↔
      (∀ before after, old.sequence = some before → r.sequence = some after → before ≤ after) ∧
        ∀ before after, old.origin = some before → r.origin = some after → before = after := by
  have hOrigin : fault?.originFault? old r = none ↔
      ∀ before after, old.origin = some before → r.origin = some after → before = after := by
    rw [fault?.originFault?]
    cases old.origin <;> cases r.origin <;> simp
  rw [← hOrigin, fault?]
  cases old.sequence with
  | none => simp
  | some before =>
    cases r.sequence with
    | none => simp
    | some after =>
      by_cases hBack : after < before
      · simp [hBack, Std.not_le.2 hBack]
      · simp [hBack, Std.not_lt.1 hBack]

end Record

/-! ## Coherent reports -/

/-- The given sequences never go back, and the given origins are all one. -/
structure Coherent (reports : List Report) : Prop where
  sequences : (reports.filterMap Report.sequence).Pairwise (· ≤ ·)
  origins : (reports.filterMap Report.origin).Pairwise (· = ·)

/-- In a list in which earlier members are related to later ones, all are related to the last. -/
theorem rel_getLast? {β : Type} {R : β → β → Prop} (refl : ∀ b, R b b) {l : List β}
    (h : l.Pairwise R) {a b : β} (ha : a ∈ l) (hb : l.getLast? = some b) : R a b := by
  obtain ⟨earlier, rfl⟩ := List.getLast?_eq_some_iff.1 hb
  rcases List.mem_append.1 ha with hEarlier | hLast
  · exact (List.pairwise_append.1 h).2.2 a hEarlier b (List.mem_singleton_self b)
  · exact List.mem_singleton.1 hLast ▸ refl b

/-- Comparing the next member with the last one that was given is enough. -/
theorem pairwise_filterMap_concat {β : Type} (given : Report → Option β) {R : β → β → Prop}
    (refl : ∀ b, R b b) (trans : ∀ a b c, R a b → R b c → R a c) {reports : List Report} {r : Report}
    (h : (reports.filterMap given).Pairwise R)
    (hNext : ∀ before after, (reports.filterMap given).getLast? = some before →
      given r = some after → R before after) :
    ((reports ++ [r]).filterMap given).Pairwise R := by
  rw [List.filterMap_append]
  cases hGiven : given r with
  | none => simpa [hGiven] using h
  | some after =>
    simp only [List.filterMap_cons, hGiven, List.filterMap_nil]
    refine List.pairwise_append.2 ⟨h, List.pairwise_singleton _ _, fun a ha b hb => ?_⟩
    rw [List.mem_singleton.1 hb]
    cases hLast : (reports.filterMap given).getLast? with
    | none => simp [List.getLast?_eq_none_iff.1 hLast] at ha
    | some before =>
      exact trans a before after (rel_getLast? refl h ha hLast) (hNext before after hLast hGiven)

/-- A report that the record has no fault with keeps the reports coherent. -/
theorem Coherent.concat {reports : List Report} {r : Report} (h : Coherent reports)
    (hFault : (Record.afterReports none reports).bind (fun old => old.fault? r) = none) :
    Coherent (reports ++ [r]) := by
  have hKept : ∀ {β : Type} (kept : Record → Option β) (before : β),
      (Record.afterReports none reports).bind kept = some before →
        ∃ old : Record, kept old = some before ∧ old.fault? r = none := by
    intro β kept before hBefore
    obtain ⟨old, hOld, hKept⟩ := Option.bind_eq_some_iff.1 hBefore
    rw [hOld] at hFault
    exact ⟨old, hKept, hFault⟩
  constructor
  · refine pairwise_filterMap_concat _ Std.le_refl (fun _ _ _ => Std.le_trans) h.sequences ?_
    intro before after hBefore hAfter
    rw [← Record.sequence_afterReports] at hBefore
    obtain ⟨old, hOld, hNone⟩ := hKept _ _ hBefore
    exact ((Record.fault?_eq_none_iff old r).1 hNone).1 before after hOld hAfter
  · refine pairwise_filterMap_concat _ (fun _ => rfl) (fun _ _ _ => Eq.trans) h.origins ?_
    intro before after hBefore hAfter
    rw [← Record.origin_afterReports] at hBefore
    obtain ⟨old, hOld, hNone⟩ := hKept _ _ hBefore
    exact ((Record.fault?_eq_none_iff old r).1 hNone).2 before after hOld hAfter

/-- One more report is coherent with the others exactly if their record has no fault with it. -/
theorem coherent_concat_iff (reports : List Report) (r : Report) :
    Coherent (reports ++ [r]) ↔
      Coherent reports ∧
        (Record.afterReports none reports).bind (fun old => old.fault? r) = none := by
  refine ⟨fun h => ⟨⟨?_, ?_⟩, ?_⟩, fun h => h.1.concat h.2⟩
  · exact (List.pairwise_append.1 (List.filterMap_append ▸ h.sequences)).1
  · exact (List.pairwise_append.1 (List.filterMap_append ▸ h.origins)).1
  · -- The record holds the values that were given last, and these are among those given before.
    have hGiven : ∀ {β : Type} (given : Report → Option β) (R : β → β → Prop) (before after : β),
        ((reports ++ [r]).filterMap given).Pairwise R →
          (reports.filterMap given).getLast? = some before → given r = some after →
            R before after := by
      intro β given R before after hPairwise hBefore hAfter
      rw [List.filterMap_append] at hPairwise
      exact (List.pairwise_append.1 hPairwise).2.2 before (List.mem_of_getLast? hBefore) after
        (by simp [hAfter])
    cases hRecord : Record.afterReports none reports with
    | none => rfl
    | some old =>
      refine (Record.fault?_eq_none_iff old r).2 ⟨fun before after hOld => ?_,
        fun before after hOld => ?_⟩
      · refine hGiven Report.sequence (· ≤ ·) before after h.sequences ?_
        rw [← Record.sequence_afterReports, hRecord, Option.bind_some, hOld]
      · refine hGiven Report.origin (· = ·) before after h.origins ?_
        rw [← Record.origin_afterReports, hRecord, Option.bind_some, hOld]

namespace Store

/-- One operation keeps a history coherent. -/
theorem coherent_note {s : Store} {id : ContainerId} {node : NodeId} {past : List Report}
    (hRecord : s.record? id node = Record.afterReports none past) (h : Coherent past)
    (op : Operation) : Coherent (s.note id node past op) := by
  rw [note]
  cases hApply : s.apply op with
  | error fault => exact h
  | ok s' =>
    simp only [Except.isOk, Except.toBool, if_true]
    split
    · exact ⟨List.Pairwise.nil, List.Pairwise.nil⟩
    · cases op with
      | report r =>
        obtain ⟨e, hEntry, hFault, -⟩ := (report_eq_ok_iff s s' r).1 hApply
        by_cases hOn : id = r.container ∧ node = r.node
        · -- The record that the report was held against is what the history leaves.
          obtain ⟨rfl, rfl⟩ := hOn
          rw [← record?_of_get? hEntry, hRecord] at hFault
          simpa [Operation.reportsOn] using h.concat hFault
        · simpa [Operation.reportsOn, hOn] using h
      | _ => simpa [Operation.reportsOn] using h

theorem coherent_historyFrom (operations : List Operation) {s : Store} {id : ContainerId}
    {node : NodeId} {past : List Report}
    (hRecord : s.record? id node = Record.afterReports none past) (h : Coherent past) :
    Coherent (historyFrom id node s past operations) := by
  -- Faults are found against the record, so it is followed along with the history.
  induction operations generalizing s past with
  | nil => exact h
  | cons op rest ih =>
    have hStep := s.record?_step op id node hRecord
    exact ih hStep (coherent_note hRecord h op)

/-- Every history of a run is coherent. -/
theorem coherent_history (operations : List Operation) (id : ContainerId) (node : NodeId) :
    Coherent (history operations id node) :=
  coherent_historyFrom operations rfl ⟨List.Pairwise.nil, List.Pairwise.nil⟩

/-- A report is taken in exactly if its container is known and it is coherent with the history of its
replica. -/
theorem report_accepted_iff (operations : List Operation) (r : Report) :
    (∃ s', (Store.empty.run operations).report r = .ok s') ↔
      (∃ e, (Store.empty.run operations).entries.get? r.container = some e) ∧
        Coherent (history operations r.container r.node ++ [r]) := by
  rw [coherent_concat_iff, ← record?_run, and_iff_right (coherent_history operations _ _)]
  simp only [report_eq_ok_iff]
  constructor
  · rintro ⟨s', e, hEntry, hFault, -⟩
    exact ⟨⟨e, hEntry⟩, by rw [record?_of_get? hEntry, hFault]⟩
  · rintro ⟨⟨e, hEntry⟩, hFault⟩
    exact ⟨_, e, hEntry, by rw [← record?_of_get? hEntry, hFault], rfl⟩

end Store

end ReplicaUpkeep
