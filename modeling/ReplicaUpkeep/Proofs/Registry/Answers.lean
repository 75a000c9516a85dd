import ReplicaUpkeep.Proofs.Registry.Run

/-!
# What a registry answers

Some questions and operations read the details of a node, others its containers.  In a consistent
registry it makes no difference: either all of them find the node, or each says of it that it was not
found.  An operation that is refused leaves the registry as it was, and a change of status leaves
everything but the half of the status that it is about.

The listing of nodes goes over the details of all of them and applies the filter to each status as it
stands, which is what looking up each name would do.
-/

namespace ReplicaUpkeep

namespace Registry

/-- The node is found by whatever asks for it, and under its own name. -/
structure Knows (g : Registry) (node : NodeId) : Prop where
  info : ∃ info, g.info node = .ok info ∧ info.id = node
  status : ∃ status, g.status node = .ok status ∧
    ∀ now, g.lookup now node = .ok (status.effective now)
  containers : ∃ set, g.containers node = .ok set
  operations : ∀ op : Operation, op.node = node → op.needsNode = true → ∃ g', g.apply op = .ok g'

/-- The node is found by nothing that asks for it. -/
structure Misses (g : Registry) (node : NodeId) : Prop where
  info : g.info node = .error (.nodeNotFound node)
  status : g.status node = .error (.nodeNotFound node)
  lookup : ∀ now, g.lookup now node = .error (.nodeNotFound node)
  containers : g.containers node = .error (.nodeNotFound node)
  operations : ∀ op : Operation, op.node = node → op.needsNode = true →
    g.apply op = .error (.nodeNotFound node)

/-- What can come of an operation: it is accepted and does what it says, or it is refused for its stated
reason and does nothing. -/
inductive Outcome (g : Registry) (op : Operation) : Registry → Prop where
  | accepted {g' : Registry} (answer : g.apply op = .ok g') (reason : g.refusal? op = none)
      (changes : g.Changes op g') : Outcome g op g'
  | refused {fault : Error} (answer : g.apply op = .error fault)
      (reason : g.refusal? op = some fault) : Outcome g op g

/-- The status of one node is another, and nothing else is. -/
structure Restates (g g' : Registry) (node : NodeId) (old new : NodeStatus) : Prop where
  before : g.status node = .ok old
  after : ∃ info, g.info node = .ok info ∧ g'.info node = .ok { info with status := new }
  others : ∀ other ≠ node, g'.info other = g.info other
  sets : ∀ other, g'.containers other = g.containers other

/-- A list of the nodes whose status matches at a moment, in ascending order. -/
structure Lists (g : Registry) (now : Timestamp) (f : NodeFilter) (nodes : List NodeId) : Prop where
  ascending : nodes.Pairwise (· < ·)
  mem_iff : ∀ node, node ∈ nodes ↔
    ∃ status, g.lookup now node = .ok status ∧ f.accepts status = true
  /-- The names are those that the details themselves give. -/
  named : nodes =
    (g.nodes.values.filter fun info => f.accepts (info.status.effective now)).map NodeInfo.id

/-! ## Asking for a node -/

section Asking

variable {g : Registry} {node : NodeId}

theorem info_eq_ok_iff (g : Registry) (node : NodeId) (info : NodeInfo) :
    g.info node = .ok info ↔ g.nodes.get? node = some info := by
  rw [Registry.info]
  cases g.nodes.get? node <;> simp

theorem status_of_get? {info : NodeInfo} (h : g.nodes.get? node = some info) :
    g.status node = .ok info.status := by
  rw [status, (g.info_eq_ok_iff node info).2 h]
  rfl

theorem lookup_of_get? {info : NodeInfo} (h : g.nodes.get? node = some info) (now : Timestamp) :
    g.lookup now node = .ok (info.status.effective now) := by
  rw [lookup, status_of_get? h]
  rfl

theorem info_of_get?_eq_none (h : g.nodes.get? node = none) :
    g.info node = .error (.nodeNotFound node) := by
  rw [Registry.info, h]

theorem lookup_eq_ok_iff (now : Timestamp) (status : NodeStatus) :
    g.lookup now node = .ok status ↔
      ∃ info, g.nodes.get? node = some info ∧ info.status.effective now = status := by
  cases hInfo : g.nodes.get? node with
  | none =>
    rw [lookup, Registry.status, info_of_get?_eq_none hInfo]
    simp [Except.map]
  | some info =>
    rw [lookup_of_get? hInfo]
    simp

/-- What needs its node has no other reason to be refused. -/
theorem refusal?_of_needsNode (g : Registry) {op : Operation} (hNeeds : op.needsNode = true) :
    g.refusal? op = if g.nodes.contains op.node then none else some (.nodeNotFound op.node) := by
  cases op with
  | addNode _ | removeNode _ => cases hNeeds
  | _ => rfl

/-- A node with neither details nor containers is missed. -/
theorem misses_of_get?_eq_none (hInfo : g.nodes.get? node = none)
    (hHosted : g.hosted.get? node = none) : g.Misses node where
  info := info_of_get?_eq_none hInfo
  status := by
    rw [Registry.status, info_of_get?_eq_none hInfo]
    rfl
  lookup now := by
    rw [Registry.lookup, Registry.status, info_of_get?_eq_none hInfo]
    rfl
  containers := by rw [containers, hHosted]
  operations op hNode hNeeds := by
    subst hNode
    cases op with
    | addNode _ | removeNode _ => cases hNeeds
    | updateNode info =>
      have hUnknown : g.nodes.get? info.id = none := hInfo
      rw [apply, updateNode, Table.contains, hUnknown]
      rfl
    | setHealth _ _ | setOperational _ _ _ =>
      exact (changeStatus_eq_error_iff _ _ _ _).2 ⟨hInfo, rfl⟩
    | addContainer node _ | setContainers node _ | removeContainer node _ =>
      have hUnknown : g.hosted.get? node = none := hHosted
      show g.changeContainers node _ = .error (.nodeNotFound node)
      rw [changeContainers, containers, hUnknown]
      rfl

end Asking

section Consistent

variable {g : Registry} (h : g.Consistent)
include h

theorem Consistent.knows {node : NodeId} {info : NodeInfo} (hInfo : g.nodes.get? node = some info) :
    g.Knows node where
  info := ⟨info, (g.info_eq_ok_iff node info).2 hInfo, h.own node info hInfo⟩
  status := ⟨info.status, status_of_get? hInfo, lookup_of_get? hInfo⟩
  containers := by
    have hListed := h.listed node
    rw [hInfo, Option.isSome_some, Option.isSome_iff_exists] at hListed
    exact hListed.imp fun set hSet => (containers_eq_ok_iff g node set).2 hSet
  operations op hNode hNeeds := by
    cases hApply : g.apply op with
    | ok g' => exact ⟨g', rfl⟩
    | error fault =>
      rw [h.apply_eq_error_iff, g.refusal?_of_needsNode hNeeds, hNode, Table.contains, hInfo] at hApply
      cases hApply

theorem Consistent.misses {node : NodeId} (hNone : g.nodes.get? node = none) : g.Misses node :=
  misses_of_get?_eq_none hNone ((h.get?_hosted_eq_none_iff node).2 hNone)

/-- A node is found in every respect or in none. -/
theorem Consistent.knows_or_misses (node : NodeId) : g.Knows node ∨ g.Misses node := by
  cases hInfo : g.nodes.get? node with
  | none => exact .inr (h.misses hInfo)
  | some info => exact .inl (h.knows hInfo)

theorem Consistent.outcome_step (op : Operation) : g.Outcome op (g.step op) := by
  rw [Registry.step, track]
  cases hApply : g.apply op with
  | ok g' =>
    refine .accepted hApply ?_ (changes_of_apply hApply)
    rw [Option.eq_none_iff_forall_ne_some]
    intro fault hFault
    rw [(h.apply_eq_error_iff op fault).2 hFault] at hApply
    cases hApply
  | error fault => exact .refused hApply ((h.apply_eq_error_iff op fault).1 hApply)

/-- A listing is what looking up every name would give. -/
theorem Consistent.lists_listNodes (now : Timestamp) (f : NodeFilter) :
    g.Lists now f (g.listNodes now f) where
  ascending := Table.keys_ascending _
  mem_iff node := by
    rw [listNodes, Table.mem_keys_iff]
    simp only [Table.get?_filter, Option.filter_eq_some_iff, lookup_eq_ok_iff]
    constructor
    · rintro ⟨info, hInfo, hAccepts⟩
      exact ⟨_, ⟨info, hInfo, rfl⟩, hAccepts⟩
    · rintro ⟨_, ⟨info, hInfo, rfl⟩, hAccepts⟩
      exact ⟨info, hInfo, hAccepts⟩
  named := by
    rw [listNodes, Table.keys, Table.filter, Table.values, List.filter_map, List.map_map]
    refine List.map_congr_left fun entry hEntry => ?_
    have hInfo := (Table.mem_entries_iff _ _ _).1 (List.mem_filter.1 hEntry).1
    exact (h.own entry.1 entry.2 hInfo).symm

end Consistent

/-! ## Changing a status -/

/-- Whichever change of status is made, it is made to one node. -/
theorem restates_of_changeStatus {g g' : Registry} {node : NodeId} {change : NodeStatus → NodeStatus}
    {status : NodeStatus} (h : g.changeStatus node change = .ok (status, g')) :
    ∃ old, status = change old ∧ g.Restates g' node old status := by
  obtain ⟨info, hInfo, rfl, rfl⟩ := (changeStatus_eq_ok_iff g g' node change status).1 h
  refine ⟨info.status, rfl, status_of_get? hInfo,
    ⟨info, (g.info_eq_ok_iff node info).2 hInfo, ?_⟩, ?_, fun _ => rfl⟩
  · exact (info_eq_ok_iff _ node _).2 (Table.get?_insert_self _ _ _)
  · intro other hOther
    rw [Registry.info, Registry.info, Table.get?_insert, if_neg hOther]

end Registry

/-- Whatever was done to a registry, refused or not: the nodes with details are those with containers and
are kept under their own names, so each is found in every respect or in none.  A refused operation changes
nothing and an accepted one only its own node; a change of status changes only its half of one status, and
no set of containers.  At every moment the listing is the ascending list of the nodes whose looked-up
status matches. -/
theorem registry_stays_consistent (operations : List Registry.Operation) :
    let g := Registry.empty.run operations
    g.Consistent ∧ (∀ node, g.Knows node ∨ g.Misses node) ∧ (∀ op, g.Outcome op (g.step op)) ∧
      (∀ node health status g', g.setHealth node health = .ok (status, g') →
        ∃ old : NodeStatus, status = { old with health } ∧ g.Restates g' node old status) ∧
      (∀ node operational expiry status g',
        g.setOperational node operational expiry = .ok (status, g') →
          ∃ old : NodeStatus, status = { old with operational, expiry } ∧
            g.Restates g' node old status) ∧
      ∀ now f, g.Lists now f (g.listNodes now f) := by
  intro g
  have hConsistent : g.Consistent := Registry.consistent_empty.run operations
  refine ⟨hConsistent, hConsistent.knows_or_misses, hConsistent.outcome_step, ?_, ?_,
    hConsistent.lists_listNodes⟩
  · intro node health status g' hDone
    exact Registry.restates_of_changeStatus hDone
  · intro node operational expiry status g' hDone
    exact Registry.restates_of_changeStatus hDone

/-- One of two nodes leaves, and what is tried with it afterwards is refused; the other cannot be registered
again, but its health can change. -/
theorem registry_stays_consistent_of_two :
    let status : NodeStatus := ⟨.inMaintenance, .healthy, none⟩
    let operations : List Registry.Operation :=
      [.addNode ⟨"a", "", status⟩, .addNode ⟨"b", "", status⟩, .addContainer "a" ⟨1⟩, .removeNode "b",
        .setHealth "b" .dead, .addContainer "b" ⟨1⟩, .addNode ⟨"a", "", status⟩]
    let g := Registry.empty.run operations
    g.info "a" = .ok ⟨"a", "", status⟩ ∧ g.Knows "a" ∧ g.Misses "b" ∧
      ∃ g', g.setHealth "a" .dead = .ok (⟨.inMaintenance, .dead, none⟩, g') ∧
        g.Restates g' "a" status ⟨.inMaintenance, .dead, none⟩ := by
  intro status operations
  -- The two nodes are read off the computed registry, which is a variable otherwise.
  obtain ⟨g, hg⟩ : ∃ g, Registry.empty.run operations = g := ⟨_, rfl⟩
  have hFirst : (g.info "a").toOption = some ⟨"a", "", status⟩ := by
    rw [← hg]
    decide +kernel
  have hSecond : (g.info "b").toOption = none := by
    rw [← hg]
    decide +kernel
  obtain ⟨-, hFound, -, hHealth, -⟩ := registry_stays_consistent operations
  rw [hg] at hFound hHealth ⊢
  have hMisses : g.Misses "b" := by
    refine (hFound "b").resolve_left fun hKnows => ?_
    obtain ⟨info, hInfo, -⟩ := hKnows.info
    rw [hInfo] at hSecond
    cases hSecond
  have hKnows : g.Knows "a" := by
    refine (hFound "a").resolve_right fun hMisses => ?_
    rw [hMisses.info] at hFirst
    cases hFirst
  obtain ⟨info, hInfo, -⟩ := hKnows.info
  obtain rfl : info = ⟨"a", "", status⟩ := by
    rw [hInfo] at hFirst
    exact Option.some.inj hFirst
  have hOld : g.status "a" = .ok status := by
    rw [Registry.status, hInfo]
    rfl
  refine ⟨hInfo, hKnows, hMisses, ?_⟩
  cases hDone : g.setHealth "a" .dead with
  | error fault =>
    obtain ⟨g', hAccepted⟩ := hKnows.operations (.setHealth "a" .dead) rfl rfl
    rw [Registry.apply, hDone] at hAccepted
    cases hAccepted
  | ok done =>
    obtain ⟨old, hStatus, hRestates⟩ := hHealth "a" .dead done.1 done.2 hDone
    obtain rfl : status = old := Except.ok.inj (hOld.symm.trans hRestates.before)
    rw [hStatus] at hRestates
    exact ⟨done.2, congrArg _ (Prod.ext hStatus rfl), hRestates⟩

end ReplicaUpkeep
