import ReplicaUpkeep.Proofs.Store.History

/-!
# What a store never takes back

Two things only ever move forwards while a container is known: its own sequence, and what was reported
on each of its replicas.  An operation that would move one of them back is refused, and a refused
operation is as if it had not been tried, for the store and for everything that follows.

The containers are followed one operation at a time: an operation either leaves a container alone, or
takes it to one that it *advances* to.  A report is held against the record of its replica; since the
record is the history of the replica, the causes of a refusal are told in terms of earlier reports.
-/

namespace ReplicaUpkeep

/-! ## Containers -/

/-- What may become of a container while it is known. -/
structure Container.Advances (c c' : Container) : Prop where
  factor : c'.factor = c.factor
  sequence : c.sequence ≤ c'.sequence

theorem Container.Advances.refl (c : Container) : c.Advances c :=
  ⟨rfl, Std.le_refl _⟩

theorem Container.Advances.trans {a b c : Container} (h : a.Advances b) (h' : b.Advances c) :
    a.Advances c :=
  ⟨h'.factor.trans h.factor, Std.le_trans h.sequence h'.sequence⟩

namespace Store

/-- An entry that takes the place of one whose container it advances. -/
theorem advances_put {s : Store} {id id' : ContainerId} {e old new : StoreEntry}
    (hOld : s.entries.get? id' = some old) (hNew : old.container.Advances new.container)
    (hEntry : s.entries.get? id = some e) :
    ∃ e', (s.put id' new).entries.get? id = some e' ∧ e.container.Advances e'.container := by
  rw [put, Table.get?_insert]
  split
  · rename_i hId
    rw [hId, hOld] at hEntry
    cases hEntry
    exact ⟨new, rfl, hNew⟩
  · exact ⟨e, hEntry, .refl _⟩

/-- An operation that succeeds leaves a known container or advances it, unless it removes it. -/
theorem advances_apply {s s' : Store} {op : Operation} (h : s.apply op = .ok s') {id : ContainerId}
    {e : StoreEntry} (hEntry : s.entries.get? id = some e) (hStays : op ≠ .remove id) :
    ∃ e', s'.entries.get? id = some e' ∧ e.container.Advances e'.container := by
  cases op with
  | add c =>
    obtain ⟨hNone, rfl⟩ := (add_eq_ok_iff s s' c).1 h
    have hOther : id ≠ c.id := by
      rintro rfl
      rw [hNone] at hEntry
      cases hEntry
    exact ⟨e, by rw [put, Table.get?_insert, if_neg hOther, hEntry], .refl _⟩
  | setState id' state =>
    obtain ⟨old, hOld, rfl⟩ := (setState_eq_ok_iff s s' id' state).1 h
    exact advances_put hOld ⟨rfl, Std.le_refl _⟩ hEntry
  | setSequence id' sequence =>
    obtain ⟨old, hOld, hAhead, rfl⟩ := (setSequence_eq_ok_iff s s' id' sequence).1 h
    exact advances_put hOld ⟨rfl, Std.not_lt.1 hAhead⟩ hEntry
  | remove id' =>
    obtain ⟨-, -, rfl⟩ := (remove_eq_ok_iff s s' id').1 h
    have hOther : id ≠ id' := fun hSame => hStays (by rw [hSame])
    exact ⟨e, by rw [Table.get?_erase, if_neg hOther, hEntry], .refl _⟩
  | report r =>
    obtain ⟨old, hOld, -, rfl⟩ := (report_eq_ok_iff s s' r).1 h
    exact advances_put hOld (.refl _) hEntry
  | removeReplica id' node =>
    obtain ⟨old, hOld, -, rfl⟩ := (removeReplica_eq_ok_iff s s' id' node).1 h
    exact advances_put hOld (.refl _) hEntry
  | evict node =>
    cases h
    exact ⟨{ e with replicas := e.replicas.erase node },
      by rw [evict, Table.get?_map, hEntry, Option.map_some], .refl _⟩

theorem advances_step {s : Store} {op : Operation} {id : ContainerId} {e : StoreEntry}
    (hEntry : s.entries.get? id = some e) (hStays : op ≠ .remove id) :
    ∃ e', (s.step op).entries.get? id = some e' ∧ e.container.Advances e'.container := by
  rw [step]
  cases hApply : s.apply op with
  | error fault => exact ⟨e, hEntry, .refl _⟩
  | ok s' => exact advances_apply hApply hEntry hStays

theorem advances_run {operations : List Operation} {s : Store} {id : ContainerId} {e : StoreEntry}
    (hEntry : s.entries.get? id = some e) (hStays : .remove id ∉ operations) :
    ∃ e', (s.run operations).entries.get? id = some e' ∧ e.container.Advances e'.container := by
  induction operations generalizing s e with
  | nil => exact ⟨e, hEntry, .refl _⟩
  | cons op rest ih =>
    rw [List.mem_cons, not_or] at hStays
    obtain ⟨mid, hMid, hFirst⟩ := advances_step hEntry (Ne.symm hStays.1)
    obtain ⟨last, hLast, hRest⟩ := ih hMid hStays.2
    exact ⟨last, hLast, hFirst.trans hRest⟩

/-- A known container advances for as long as it is not removed. -/
theorem container_run {operations : List Operation} {s : Store} {id : ContainerId} {c : Container}
    (hKnown : s.container id = .ok c) (hStays : .remove id ∉ operations) :
    ∃ c', (s.run operations).container id = .ok c' ∧ c.Advances c' := by
  obtain ⟨e, hEntry, rfl⟩ := (entry_map_eq_ok_iff _ _ _ _).1 hKnown
  obtain ⟨e', hEntry', hAdvances⟩ := advances_run hEntry hStays
  exact ⟨e'.container, (entry_map_eq_ok_iff _ _ _ _).2 ⟨e', hEntry', rfl⟩, hAdvances⟩

/-! ## Histories -/

theorem historyFrom_append (id : ContainerId) (node : NodeId) (before later : List Operation)
    (s : Store) (past : List Report) :
    historyFrom id node s past (before ++ later) =
      historyFrom id node (s.run before) (historyFrom id node s past before) later := by
  induction before generalizing s past with
  | nil => rfl
  | cons op rest ih => exact ih (s.step op) _

/-- A history only grows until the replica is dropped. -/
theorem prefix_historyFrom {operations : List Operation} {id : ContainerId} {node : NodeId}
    (hStays : ∀ op ∈ operations, op.drops id node = false) (s : Store) (past : List Report) :
    past <+: historyFrom id node s past operations := by
  induction operations generalizing s past with
  | nil => exact List.prefix_rfl
  | cons op rest ih =>
    have hNote : past <+: s.note id node past op := by
      rw [note]
      split
      · rw [hStays op List.mem_cons_self, if_neg Bool.false_ne_true]
        exact List.prefix_append _ _
      · exact List.prefix_rfl
    exact hNote.trans (ih (fun op' hOp => hStays op' (List.mem_cons_of_mem _ hOp)) _ _)

/-! ## Refusals -/

/-- The causes for which a store refuses a report, told from the reports that it accepted on the same
replica before: the container is missing, or the report moves the sequence back, or, where it does not,
it changes the origin. -/
inductive Refuses (s : Store) (past : List Report) (r : Report) : Error → Prop
  | unknown (hUnknown : s.entries.get? r.container = none) :
    Refuses s past r (.containerNotFound r.container)
  | regressed (before after : UInt64)
    (hBefore : (past.filterMap Report.sequence).getLast? = some before)
    (hAfter : r.sequence = some after) (hBack : after < before) :
    Refuses s past r (.invalidReport r.container (.replicaRegressed r.node before after))
  | changed (before after : NodeId)
    (hBefore : (past.filterMap Report.origin).getLast? = some before)
    (hAfter : r.origin = some after) (hOther : before ≠ after)
    (hAhead : ∀ b a, (past.filterMap Report.sequence).getLast? = some b →
      r.sequence = some a → b ≤ a) :
    Refuses s past r (.invalidReport r.container (.originChanged r.node before after))

end Store

namespace Record

/-- What a record holds against a report: a sequence that moves back, or else an origin that changes. -/
theorem fault?_eq_some_iff (old : Record) (r : Report) (fault : ReportFault) :
    old.fault? r = some fault ↔
      (∃ before after, old.sequence = some before ∧ r.sequence = some after ∧ after < before ∧
        fault = .replicaRegressed r.node before after) ∨
      (∃ before after, old.origin = some before ∧ r.origin = some after ∧ before ≠ after ∧
        (∀ b a, old.sequence = some b → r.sequence = some a → b ≤ a) ∧
        fault = .originChanged r.node before after) := by
  have hOrigin : fault?.originFault? old r = some fault ↔
      ∃ before after, old.origin = some before ∧ r.origin = some after ∧ before ≠ after ∧
        fault = .originChanged r.node before after := by
    rw [fault?.originFault?]
    cases old.origin <;> cases r.origin <;> simp [eq_comm]
  rw [fault?]
  cases old.sequence with
  | none => simp [hOrigin]
  | some before =>
    cases r.sequence with
    | none => simp [hOrigin]
    | some after =>
      by_cases hBack : after < before
      · simp [hBack, Std.not_le.2 hBack, eq_comm]
      · simp [hBack, hOrigin, Std.not_lt.1 hBack]

/-- What the record of earlier reports holds against another one. -/
theorem fault?_afterReports_eq_some_iff (past : List Report) (r : Report) (fault : ReportFault) :
    (afterReports none past).bind (fun old => old.fault? r) = some fault ↔
      (∃ before after, (past.filterMap Report.sequence).getLast? = some before ∧
        r.sequence = some after ∧ after < before ∧
          fault = .replicaRegressed r.node before after) ∨
      (∃ before after, (past.filterMap Report.origin).getLast? = some before ∧
        r.origin = some after ∧ before ≠ after ∧
          (∀ b a, (past.filterMap Report.sequence).getLast? = some b →
            r.sequence = some a → b ≤ a) ∧
          fault = .originChanged r.node before after) := by
  rw [← sequence_afterReports, ← origin_afterReports]
  cases afterReports none past with
  | none => simp
  | some old => exact fault?_eq_some_iff old r fault

end Record

namespace Store

theorem report_eq_error_iff (s : Store) (r : Report) (fault : Error) :
    s.report r = .error fault ↔
      (s.entries.get? r.container = none ∧ fault = .containerNotFound r.container) ∨
      ∃ why, (s.record? r.container r.node).bind (fun old => old.fault? r) = some why ∧
        fault = .invalidReport r.container why := by
  rw [report, record?, entry]
  cases s.entries.get? r.container with
  | none => simp [bind, Except.bind, eq_comm]
  | some e =>
    cases hFault : (e.replicas.get? r.node).bind (fun old => old.fault? r) with
    | none => simp [bind, Except.bind, hFault]
    | some why => simp [bind, Except.bind, hFault, eq_comm]

/-- A store refuses a report for these causes only, and names the one that applies. -/
theorem report_eq_error_iff_refuses (operations : List Operation) (r : Report) (fault : Error) :
    (Store.empty.run operations).report r = .error fault ↔
      Refuses (Store.empty.run operations) (history operations r.container r.node) r fault := by
  simp only [report_eq_error_iff, record?_run, Record.fault?_afterReports_eq_some_iff]
  constructor
  · rintro (⟨hUnknown, rfl⟩ | ⟨why, ⟨before, after, hBefore, hAfter, hBack, rfl⟩ |
      ⟨before, after, hBefore, hAfter, hOther, hAhead, rfl⟩, rfl⟩)
    · exact .unknown hUnknown
    · exact .regressed before after hBefore hAfter hBack
    · exact .changed before after hBefore hAfter hOther hAhead
  · rintro (hUnknown | ⟨before, after, hBefore, hAfter, hBack⟩ |
      ⟨before, after, hBefore, hAfter, hOther, hAhead⟩)
    · exact .inl ⟨hUnknown, rfl⟩
    · exact .inr ⟨_, .inl ⟨before, after, hBefore, hAfter, hBack, rfl⟩, rfl⟩
    · exact .inr ⟨_, .inr ⟨before, after, hBefore, hAfter, hOther, hAhead, rfl⟩, rfl⟩

theorem step_of_refused {s : Store} {op : Operation} {fault : Error}
    (h : s.apply op = .error fault) : s.step op = s := by
  rw [step, h]

theorem note_of_refused {s : Store} {op : Operation} {fault : Error}
    (h : s.apply op = .error fault) (id : ContainerId) (node : NodeId) (past : List Report) :
    s.note id node past op = past := by
  rw [note, h, if_neg (by simp [Except.isOk, Except.toBool])]

end Store

/-- After any run: a known container keeps its replication factor, and its sequence never falls, through
whatever follows short of its removal.  The reports accepted on a replica since it was last dropped give
sequences that never fall and origins that are all one, whatever reports without either stand between
them, and until it is dropped the list of them only grows.  A report is refused exactly if its container
is missing, its sequence falls behind or its origin differs, and the error says which.  An operation
that is refused leaves everything as it was: what follows goes as if it had not been tried. -/
theorem store_never_moves_back (before : List Store.Operation) :
    let s := Store.empty.run before
    (∀ (later : List Store.Operation) (id : ContainerId) (c : Container),
      s.container id = .ok c → .remove id ∉ later →
        ∃ c', (s.run later).container id = .ok c' ∧ c'.factor = c.factor ∧
          c.sequence ≤ c'.sequence) ∧
    (∀ (id : ContainerId) (node : NodeId), Coherent (Store.history before id node) ∧
      ∀ later : List Store.Operation, (∀ op ∈ later, op.drops id node = false) →
        Store.history before id node <+: Store.history (before ++ later) id node) ∧
    (∀ (r : Report) (fault : Error), s.report r = .error fault ↔
      Store.Refuses s (Store.history before r.container r.node) r fault) ∧
    ∀ (op : Store.Operation) (fault : Error), s.apply op = .error fault →
      ∀ later : List Store.Operation,
        Store.empty.run (before ++ op :: later) = Store.empty.run (before ++ later) ∧
        ∀ (id : ContainerId) (node : NodeId),
          Store.history (before ++ op :: later) id node =
            Store.history (before ++ later) id node := by
  intro s
  refine ⟨fun later id c hKnown hStays => ?_, fun id node => ⟨?_, fun later hStays => ?_⟩,
    Store.report_eq_error_iff_refuses before, fun op fault hRefused later => ⟨?_, fun id node => ?_⟩⟩
  · obtain ⟨c', hStill, hAdvances⟩ := Store.container_run hKnown hStays
    exact ⟨c', hStill, hAdvances.factor, hAdvances.sequence⟩
  · exact Store.coherent_history before id node
  · rw [Store.history, Store.history, Store.historyFrom_append]
    exact Store.prefix_historyFrom hStays _ _
  · rw [Store.run_append, Store.run_append]
    show (s.step op).run later = s.run later
    rw [Store.step_of_refused hRefused]
  · rw [Store.history, Store.history, Store.historyFrom_append, Store.historyFrom_append]
    show Store.historyFrom id node (s.step op) (s.note id node _ op) later = _
    rw [Store.step_of_refused hRefused, Store.note_of_refused hRefused]

/-- A container of factor three at sequence four, with a replica that was last given at sequence nine,
before a report without a sequence. -/
theorem store_never_moves_back_of_one :
    let atNine : Report := ⟨⟨1⟩, "a", .quasiClosed, some 9, some "a", false⟩
    let silent : Report := ⟨⟨1⟩, "a", .quasiClosed, none, none, false⟩
    let behind : Report := ⟨⟨1⟩, "a", .quasiClosed, some 8, some "a", false⟩
    let again : Report := ⟨⟨1⟩, "a", .quasiClosed, some 9, some "a", true⟩
    let before : List Store.Operation :=
      [.add ⟨⟨1⟩, .quasiClosed, 3, 4⟩, .report atNine, .report silent]
    (∃ c', ((Store.empty.run before).run [.setSequence ⟨1⟩ 7, .setSequence ⟨1⟩ 5]).container ⟨1⟩ =
      .ok c' ∧ c'.factor = 3 ∧ 4 ≤ c'.sequence) ∧
    Store.history before ⟨1⟩ "a" <+: Store.history (before ++ [.report again]) ⟨1⟩ "a" ∧
    (Store.empty.run before).report behind =
      .error (.invalidReport ⟨1⟩ (.replicaRegressed "a" 9 8)) ∧
    Store.empty.run (before ++ [.report behind, .report again]) =
      Store.empty.run (before ++ [.report again]) := by
  intro atNine silent behind again before
  obtain ⟨hContainers, hHistories, hRefusals, hUntried⟩ := store_never_moves_back before
  have hRefused : (Store.empty.run before).report behind =
      .error (.invalidReport ⟨1⟩ (.replicaRegressed "a" 9 8)) :=
    (hRefusals behind _).2 (.regressed 9 8 (by decide) rfl (by decide))
  exact ⟨hContainers [.setSequence ⟨1⟩ 7, .setSequence ⟨1⟩ 5] ⟨1⟩ ⟨⟨1⟩, .quasiClosed, 3, 4⟩ rfl
      (by decide), (hHistories ⟨1⟩ "a").2 [.report again] (by decide), hRefused,
    (hUntried (.report behind) _ hRefused [.report again]).1⟩

end ReplicaUpkeep
