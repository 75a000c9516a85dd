import ReplicaUpkeep.Store

/-!
# Runs of a store

A run applies operations one after another; a refused one changes nothing.  The record of a replica is
followed through a run by the reports that were accepted for it since it was last dropped, its
*history*.  The main statement is that the record is that history and nothing else: no operation on
another container or node reaches it.

Operations may come in any order, on any containers and nodes, known or not.
-/

namespace ReplicaUpkeep

namespace Record

/-- The record after reports that were taken in one after another. -/
def afterReports (old : Option Record) (reports : List Report) : Option Record :=
  reports.foldl (fun old r => some (ofReport old r)) old

@[simp] theorem afterReports_nil (old : Option Record) : afterReports old [] = old :=
  rfl

@[simp] theorem afterReports_singleton (old : Option Record) (r : Report) :
    afterReports old [r] = some (ofReport old r) :=
  rfl

theorem afterReports_append (old : Option Record) (l m : List Report) :
    afterReports old (l ++ m) = afterReports (afterReports old l) m :=
  List.foldl_append

end Record

namespace Store

/-- An operation on a store. -/
inductive Operation where
  | add (container : Container)
  | setState (id : ContainerId) (state : ContainerState)
  | setSequence (id : ContainerId) (sequence : UInt64)
  | remove (id : ContainerId)
  | report (r : Report)
  | removeReplica (id : ContainerId) (node : NodeId)
  | evict (node : NodeId)
  deriving DecidableEq, Repr

namespace Operation

/-- Does the operation, when it succeeds, drop the record of this replica? -/
def drops : Operation → ContainerId → NodeId → Bool
  | .remove id', id, _ => id = id'
  | .removeReplica id' node', id, node => id = id' && node = node'
  | .evict node', _, node => node = node'
  | _, _, _ => false

/-- What the operation reports on this replica. -/
def reportsOn : Operation → ContainerId → NodeId → List Report
  | .report r, id, node => if id = r.container ∧ node = r.node then [r] else []
  | _, _, _ => []

end Operation

/-- The store after an operation, if the operation is not refused. -/
def apply (s : Store) : Operation → Except Error Store
  | .add container => s.add container
  | .setState id state => s.setState id state
  | .setSequence id sequence => s.setSequence id sequence
  | .remove id => (s.remove id).map Prod.snd
  | .report r => s.report r
  | .removeReplica id node => s.removeReplica id node
  | .evict node => .ok (s.evict node).2

/-- The store after an operation; a refused one leaves it alone. -/
def step (s : Store) (op : Operation) : Store :=
  match s.apply op with
  | .ok s' => s'
  | .error _ => s

/-- The store after operations in turn. -/
def run (s : Store) (operations : List Operation) : Store :=
  operations.foldl step s

/-- The record of a replica, if there is one. -/
def record? (s : Store) (id : ContainerId) (node : NodeId) : Option Record :=
  (s.entries.get? id).bind (fun e => e.replicas.get? node)

/-- The reports accepted on a replica since its record was last dropped, after one more operation. -/
def note (s : Store) (id : ContainerId) (node : NodeId) (past : List Report) (op : Operation) :
    List Report :=
  if (s.apply op).isOk then
    if op.drops id node then [] else past ++ op.reportsOn id node
  else past

/-- The reports accepted on a replica since its record was last dropped, after a run. -/
def historyFrom (id : ContainerId) (node : NodeId) :
    Store → List Report → List Operation → List Report
  | _, past, [] => past
  | s, past, op :: rest => historyFrom id node (s.step op) (s.note id node past op) rest

/-- The reports accepted on a replica since its record was last dropped, in a run from no containers. -/
def history (operations : List Operation) (id : ContainerId) (node : NodeId) : List Report :=
  historyFrom id node .empty [] operations

/-! ## When an operation succeeds, and what it leaves -/

theorem entry_bind_eq_ok_iff {α : Type} (s : Store) (id : ContainerId)
    (f : StoreEntry → Except Error α) (a : α) :
    (s.entry id >>= f) = .ok a ↔ ∃ e, s.entries.get? id = some e ∧ f e = .ok a := by
  rw [entry]
  cases s.entries.get? id with
  | none => simp [bind, Except.bind]
  | some e => simp [bind, Except.bind]

theorem entry_map_eq_ok_iff {α : Type} (s : Store) (id : ContainerId) (f : StoreEntry → α) (a : α) :
    (s.entry id).map f = .ok a ↔ ∃ e, s.entries.get? id = some e ∧ f e = a := by
  rw [entry]
  cases s.entries.get? id with
  | none => simp [Except.map]
  | some e => simp [Except.map]

theorem add_eq_ok_iff (s s' : Store) (c : Container) :
    s.add c = .ok s' ↔
      s.entries.get? c.id = none ∧ s.put c.id { container := c, replicas := .empty } = s' := by
  rw [add, Table.contains]
  cases s.entries.get? c.id <;> simp

theorem setState_eq_ok_iff (s s' : Store) (id : ContainerId) (state : ContainerState) :
    s.setState id state = .ok s' ↔ ∃ e, s.entries.get? id = some e ∧
      s.put id { e with container := { e.container with state } } = s' :=
  entry_map_eq_ok_iff _ _ _ _

theorem setSequence_eq_ok_iff (s s' : Store) (id : ContainerId) (sequence : UInt64) :
    s.setSequence id sequence = .ok s' ↔ ∃ e, s.entries.get? id = some e ∧
      ¬ sequence < e.container.sequence ∧
        s.put id { e with container := { e.container with sequence } } = s' := by
  rw [setSequence, entry_bind_eq_ok_iff]
  refine exists_congr fun e => and_congr_right fun _ => ?_
  split <;> simp_all

theorem remove_eq_ok_iff (s s' : Store) (id : ContainerId) :
    s.apply (.remove id) = .ok s' ↔
      ∃ e, s.entries.get? id = some e ∧ { entries := s.entries.erase id } = s' := by
  have h := entry_map_eq_ok_iff s id (fun _ => ({ entries := s.entries.erase id } : Store)) s'
  rw [← h, apply, remove, container]
  cases s.entry id <;> rfl

theorem report_eq_ok_iff (s s' : Store) (r : Report) :
    s.report r = .ok s' ↔ ∃ e, s.entries.get? r.container = some e ∧
      (e.replicas.get? r.node).bind (fun old => old.fault? r) = none ∧
        s.put r.container { e with
          replicas := e.replicas.insert r.node (.ofReport (e.replicas.get? r.node) r) } = s' := by
  rw [report, entry_bind_eq_ok_iff]
  refine exists_congr fun e => and_congr_right fun _ => ?_
  dsimp only
  split <;> simp_all

theorem removeReplica_eq_ok_iff (s s' : Store) (id : ContainerId) (node : NodeId) :
    s.removeReplica id node = .ok s' ↔ ∃ e, s.entries.get? id = some e ∧
      (e.replicas.get? node).isSome = true ∧
        s.put id { e with replicas := e.replicas.erase node } = s' := by
  rw [removeReplica, entry_bind_eq_ok_iff]
  refine exists_congr fun e => and_congr_right fun _ => ?_
  rw [Table.contains]
  split <;> simp_all

/-! ## What one operation does to a record -/

theorem record?_of_get? {s : Store} {id : ContainerId} {e : StoreEntry}
    (h : s.entries.get? id = some e) (node : NodeId) :
    s.record? id node = e.replicas.get? node := by
  rw [record?, h, Option.bind_some]

theorem record?_put (s : Store) (id : ContainerId) (e : StoreEntry) (id' : ContainerId)
    (node : NodeId) :
    (s.put id e).record? id' node =
      if id' = id then e.replicas.get? node else s.record? id' node := by
  rw [record?, put, Table.get?_insert]
  split <;> rfl

/-- Replacing the container of an entry changes no record. -/
theorem record?_put_of_replicas_eq {s : Store} {id : ContainerId} {e e' : StoreEntry}
    (h : s.entries.get? id = some e) (hReplicas : e'.replicas = e.replicas) (id' : ContainerId)
    (node : NodeId) : (s.put id e').record? id' node = s.record? id' node := by
  rw [record?_put]
  split
  · rename_i hId
    rw [hId, record?_of_get? h, hReplicas]
  · rfl

/-- After an operation that succeeds, a record is dropped, or it has taken in what the operation
reports on it, which for most operations is nothing. -/
theorem record?_apply {s s' : Store} {op : Operation} (h : s.apply op = .ok s') (id : ContainerId)
    (node : NodeId) :
    s'.record? id node =
      if op.drops id node then none
      else Record.afterReports (s.record? id node) (op.reportsOn id node) := by
  cases op with
  | add c =>
    obtain ⟨hNone, rfl⟩ := (add_eq_ok_iff s s' c).1 h
    rw [record?_put]
    by_cases hId : id = c.id
    · simp [hId, record?, hNone, Operation.drops, Operation.reportsOn]
    · simp [hId, Operation.drops, Operation.reportsOn]
  | setState id' state =>
    obtain ⟨e, hEntry, rfl⟩ := (setState_eq_ok_iff s s' id' state).1 h
    exact record?_put_of_replicas_eq hEntry (by rfl) id node
  | setSequence id' sequence =>
    obtain ⟨e, hEntry, -, rfl⟩ := (setSequence_eq_ok_iff s s' id' sequence).1 h
    exact record?_put_of_replicas_eq hEntry (by rfl) id node
  | remove id' =>
    obtain ⟨e, -, rfl⟩ := (remove_eq_ok_iff s s' id').1 h
    rw [record?, Table.get?_erase]
    by_cases hId : id = id'
    · simp [hId, Operation.drops]
    · simp [hId, record?, Operation.drops, Operation.reportsOn]
  | report r =>
    obtain ⟨e, hEntry, -, rfl⟩ := (report_eq_ok_iff s s' r).1 h
    -- The entry is replaced as a whole, but all its other records are taken over.
    rw [record?_put]
    by_cases hId : id = r.container
    · subst hId
      rw [record?_of_get? hEntry, Table.get?_insert]
      by_cases hNode : node = r.node
      · simp [hNode, Operation.drops, Operation.reportsOn]
      · simp [hNode, Operation.drops, Operation.reportsOn]
    · simp [hId, Operation.drops, Operation.reportsOn]
  | removeReplica id' node' =>
    obtain ⟨e, hEntry, -, rfl⟩ := (removeReplica_eq_ok_iff s s' id' node').1 h
    rw [record?_put]
    by_cases hId : id = id'
    · subst hId
      rw [record?_of_get? hEntry, Table.get?_erase]
      by_cases hNode : node = node'
      · simp [hNode, Operation.drops]
      · simp [hNode, Operation.drops, Operation.reportsOn]
    · simp [hId, Operation.drops, Operation.reportsOn]
  | evict node' =>
    -- Eviction goes over all containers and is never refused, even where the node is unknown.
    cases h
    rw [record?, evict, Table.get?_map]
    cases hEntry : s.entries.get? id with
    | none => simp [record?, hEntry, Operation.drops, Operation.reportsOn]
    | some e =>
      rw [record?_of_get? hEntry, Option.map_some, Option.bind_some, Table.get?_erase]
      by_cases hNode : node = node'
      · simp [hNode, Operation.drops]
      · simp [hNode, Operation.drops, Operation.reportsOn]

/-- One operation keeps record and history in step. -/
theorem record?_step (s : Store) (op : Operation) (id : ContainerId) (node : NodeId)
    {past : List Report} (h : s.record? id node = Record.afterReports none past) :
    (s.step op).record? id node = Record.afterReports none (s.note id node past op) := by
  rw [step, note]
  cases hApply : s.apply op with
  | error fault => exact h
  | ok s' =>
    rw [record?_apply hApply, h]
    simp only [Except.isOk, Except.toBool, if_true]
    split
    · rfl
    · rw [Record.afterReports_append]

/-! ## What a run does to a record -/

theorem run_append (s : Store) (before later : List Operation) :
    s.run (before ++ later) = (s.run before).run later :=
  List.foldl_append

/-- The record that a run leaves is its history, from wherever the run starts. -/
theorem record?_run_eq_historyFrom (operations : List Operation) (s : Store) (id : ContainerId)
    (node : NodeId) {past : List Report} (h : s.record? id node = Record.afterReports none past) :
    (s.run operations).record? id node =
      Record.afterReports none (historyFrom id node s past operations) := by
  -- The past is generalised with the store: it is what the record at the start stands for.
  induction operations generalizing s past with
  | nil => exact h
  | cons op rest ih =>
    have hStep := s.record?_step op id node h
    exact ih (s.step op) hStep

/-- The record of a replica is its history. -/
theorem record?_run (operations : List Operation) (id : ContainerId) (node : NodeId) :
    (Store.empty.run operations).record? id node =
      Record.afterReports none (history operations id node) :=
  record?_run_eq_historyFrom operations .empty id node rfl

end Store

end ReplicaUpkeep
