import Mathlib.Data.List.Induction
import Mathlib.Data.List.Nodup
import ReplicaUpkeep.Image
import ReplicaUpkeep.Proofs.Registry.Run
import ReplicaUpkeep.Proofs.Store.History
import ReplicaUpkeep.Proofs.Store.Keyed

/-!
# Building an image

An image is built in three passes: over its nodes, its containers and its reports.  A pass ends at the
first entry that is refused.  The passes over nodes and containers are of one kind, since both take
entries in under a key and refuse a key that is taken.  The pass over the reports is a run of a store in
which nothing is refused, so what it leaves of a replica is the history of that run, and this is the
image's reports on the replica in their order.

What the registry believes nodes to host never refuses anything.  It is followed beside the pass over the
reports, and the status of nodes is untouched by it.
-/

namespace ReplicaUpkeep

/-! ## Checked passes -/

/-- What a checked step shows is what it shows when it is accepted. -/
theorem toOption_eq_some_iff {ε α : Type} {x : Except ε α} {a : α} :
    x.toOption = some a ↔ x = .ok a := by
  cases x <;> simp [Except.toOption]

section Passes

variable {α σ : Type} {f : σ → α → Except Error σ}

theorem foldlM_concat_eq_ok_iff (l : List α) (a : α) (s s'' : σ) :
    (l ++ [a]).foldlM f s = .ok s'' ↔ ∃ s', l.foldlM f s = .ok s' ∧ f s' a = .ok s'' := by
  rw [List.foldlM_append]
  cases l.foldlM f s with
  | error fault => simp [bind, Except.bind]
  | ok s' =>
    show [a].foldlM f s' = .ok s'' ↔ _
    rw [List.foldlM_cons]
    cases hLast : f s' a <;> simp [bind, Except.bind, hLast, pure, Except.pure]

/-- A pass is refused at its first entry that is refused after those before it. -/
theorem foldlM_eq_error_iff (l : List α) (s : σ) (fault : Error) :
    l.foldlM f s = .error fault ↔
      ∃ before a after s', l = before ++ a :: after ∧ before.foldlM f s = .ok s' ∧
        f s' a = .error fault := by
  induction l generalizing s with
  | nil => simp [pure, Except.pure]
  | cons a rest ih =>
    rw [List.foldlM_cons]
    constructor
    · intro h
      cases hFirst : f s a with
      | error why =>
        rw [hFirst] at h
        cases h
        exact ⟨[], a, rest, s, rfl, rfl, hFirst⟩
      | ok next =>
        rw [hFirst] at h
        obtain ⟨before, b, after, s', rfl, hBefore, hRefused⟩ := (ih next).1 h
        refine ⟨a :: before, b, after, s', rfl, ?_, hRefused⟩
        rw [List.foldlM_cons, hFirst]
        exact hBefore
    · rintro ⟨before, b, after, s', hSplit, hBefore, hRefused⟩
      cases before with
      | nil =>
        cases hBefore
        obtain ⟨rfl, rfl⟩ := List.cons.inj hSplit
        rw [hRefused]
        rfl
      | cons c before =>
        obtain ⟨rfl, rfl⟩ := List.cons.inj hSplit
        rw [List.foldlM_cons] at hBefore
        cases hFirst : f s a with
        | error why =>
          rw [hFirst] at hBefore
          cases hBefore
        | ok next =>
          rw [hFirst] at hBefore
          exact (ih next).2 ⟨before, b, after, s', rfl, hBefore, hRefused⟩

/-- What every step of a pass keeps, the pass keeps. -/
theorem foldlM_keeps {P : σ → Prop} (hStep : ∀ s a s', P s → f s a = .ok s' → P s') {l : List α}
    {s s' : σ} (h : P s) (hPass : l.foldlM f s = .ok s') : P s' := by
  induction l using List.reverseRecOn generalizing s' with
  | nil =>
    cases hPass
    exact h
  | append_singleton l a ih =>
    obtain ⟨mid, hMid, hLast⟩ := (foldlM_concat_eq_ok_iff l a s s').1 hPass
    exact hStep mid a s' (ih hMid) hLast

end Passes

/-! ## Passes that take entries in under their keys -/

/-- Entries are taken in under their keys, and refused under a key that is taken. -/
structure Collects {α κ σ : Type} [DecidableEq κ] (add : σ → α → Except Error σ) (key : α → κ)
    (taken : κ → Error) (view : σ → κ → Option α) : Prop where
  accepted_iff : ∀ s a, (∃ s', add s a = .ok s') ↔ view s (key a) = none
  refused_iff : ∀ s a fault, add s a = .error fault ↔ view s (key a) ≠ none ∧ fault = taken (key a)
  view_add : ∀ s a s', add s a = .ok s' → ∀ k, view s' k = if k = key a then some a else view s k

namespace Collects

variable {α κ σ : Type} [DecidableEq κ] {add : σ → α → Except Error σ} {key : α → κ}
  {taken : κ → Error} {view : σ → κ → Option α} {start : σ}

/-- After a pass the entries of the list are there, each under its key, and no others. -/
theorem view_pass (h : Collects add key taken view) (hStart : ∀ k, view start k = none)
    {l : List α} {s : σ} (hPass : l.foldlM add start = .ok s) (k : κ) (a : α) :
    view s k = some a ↔ a ∈ l ∧ key a = k := by
  induction l using List.reverseRecOn generalizing s k a with
  | nil =>
    cases hPass
    simp [hStart]
  | append_singleton l b ih =>
    obtain ⟨mid, hMid, hLast⟩ := (foldlM_concat_eq_ok_iff l b start s).1 hPass
    have hFresh : view mid (key b) = none := (h.accepted_iff mid b).1 ⟨s, hLast⟩
    have hOther : ∀ c ∈ l, key c ≠ key b := by
      intro c hc hKey
      rw [(ih hMid (key b) c).2 ⟨hc, hKey⟩] at hFresh
      cases hFresh
    rw [h.view_add mid b s hLast]
    split
    · rename_i hKey
      subst hKey
      constructor
      · rintro ⟨⟩
        exact ⟨by simp, rfl⟩
      · rintro ⟨hMem, hKey⟩
        rcases List.mem_append.1 hMem with hEarlier | hSelf
        · exact absurd hKey (hOther a hEarlier)
        · rw [List.mem_singleton.1 hSelf]
    · rename_i hKey
      rw [ih hMid, List.mem_append, List.mem_singleton]
      constructor
      · rintro ⟨hMem, hOwn⟩
        exact ⟨.inl hMem, hOwn⟩
      · rintro ⟨hMem | rfl, hOwn⟩
        · exact ⟨hMem, hOwn⟩
        · exact absurd hOwn.symm hKey

/-- Taken keys are those of entries that are there. -/
theorem view_eq_none_iff (h : Collects add key taken view) (hStart : ∀ k, view start k = none)
    {l : List α} {s : σ} (hPass : l.foldlM add start = .ok s) (k : κ) :
    view s k = none ↔ k ∉ l.map key := by
  simp only [Option.eq_none_iff_forall_ne_some, ne_eq, h.view_pass hStart hPass, List.mem_map]
  exact ⟨fun hNone ⟨a, hMem, hKey⟩ => hNone a ⟨hMem, hKey⟩,
    fun hNone a ⟨hMem, hKey⟩ => hNone ⟨a, hMem, hKey⟩⟩

/-- A pass is accepted exactly if the keys are distinct. -/
theorem pass_accepted_iff (h : Collects add key taken view) (hStart : ∀ k, view start k = none)
    (l : List α) : (∃ s, l.foldlM add start = .ok s) ↔ (l.map key).Nodup := by
  induction l using List.reverseRecOn with
  | nil => simp [pure, Except.pure]
  | append_singleton l a ih =>
    rw [List.map_append, List.map_singleton, List.nodup_append_comm, List.singleton_append,
      List.nodup_cons, ← ih]
    simp only [foldlM_concat_eq_ok_iff]
    constructor
    · rintro ⟨s, mid, hMid, hLast⟩
      exact ⟨(h.view_eq_none_iff hStart hMid _).1 ((h.accepted_iff mid a).1 ⟨s, hLast⟩), mid, hMid⟩
    · rintro ⟨hFresh, mid, hMid⟩
      obtain ⟨s, hLast⟩ :=
        (h.accepted_iff mid a).2 ((h.view_eq_none_iff hStart hMid _).2 hFresh)
      exact ⟨s, mid, hMid, hLast⟩

/-- A pass is refused at the first entry whose key is that of an earlier one. -/
theorem pass_refused_iff (h : Collects add key taken view) (hStart : ∀ k, view start k = none)
    (l : List α) (fault : Error) :
    l.foldlM add start = .error fault ↔
      ∃ before a after, l = before ++ a :: after ∧ (before.map key).Nodup ∧
        key a ∈ before.map key ∧ fault = taken (key a) := by
  rw [foldlM_eq_error_iff]
  constructor
  · rintro ⟨before, a, after, s, hSplit, hBefore, hRefused⟩
    obtain ⟨hTaken, hFault⟩ := (h.refused_iff s a fault).1 hRefused
    refine ⟨before, a, after, hSplit, (h.pass_accepted_iff hStart before).1 ⟨s, hBefore⟩, ?_, hFault⟩
    exact not_not.1 fun hFresh => hTaken ((h.view_eq_none_iff hStart hBefore _).2 hFresh)
  · rintro ⟨before, a, after, hSplit, hDistinct, hTaken, hFault⟩
    obtain ⟨s, hBefore⟩ := (h.pass_accepted_iff hStart before).2 hDistinct
    refine ⟨before, a, after, s, hSplit, hBefore, (h.refused_iff s a fault).2 ⟨?_, hFault⟩⟩
    exact fun hFresh => (h.view_eq_none_iff hStart hBefore _).1 hFresh hTaken

end Collects

/-! ## Nodes and containers -/

/-- The container under a number, if it is known. -/
def Store.container? (s : Store) (id : ContainerId) : Option Container :=
  (s.entries.get? id).map StoreEntry.container

theorem Store.container_eq_ok_iff_container? (s : Store) (id : ContainerId) (c : Container) :
    s.container id = .ok c ↔ s.container? id = some c := by
  rw [container, entry_map_eq_ok_iff, container?, Option.map_eq_some_iff]

theorem Store.collects_add : Collects Store.add Container.id .containerExists Store.container? where
  accepted_iff s c := by
    simp only [add_eq_ok_iff, container?, Option.map_eq_none_iff, exists_and_left, exists_eq',
      and_true]
  refused_iff s c fault := by
    rw [add, Table.contains, container?]
    cases s.entries.get? c.id <;> simp [eq_comm]
  view_add s c s' h id := by
    obtain ⟨-, rfl⟩ := (add_eq_ok_iff s s' c).1 h
    rw [container?, put, Table.get?_insert]
    split <;> rfl

theorem Registry.collects_addNode :
    Collects Registry.addNode NodeInfo.id .nodeExists (fun g node => g.nodes.get? node) where
  accepted_iff g info := by
    simp only [addNode_eq_ok_iff, exists_and_left, exists_eq', and_true]
  refused_iff g info fault := by
    rw [addNode, Table.contains]
    cases g.nodes.get? info.id <;> simp [eq_comm]
  view_add g info g' h node := by
    obtain ⟨-, rfl⟩ := (addNode_eq_ok_iff g g' info).1 h
    exact Table.get?_insert g.nodes info.id node info

/-- A registry that is built of a list of nodes knows of each of them, and of none that it hosts. -/
theorem ClusterImage.get?_hosted_registryOf {nodes : List NodeInfo} {g : Registry}
    (h : registryOf nodes = .ok g) (node : NodeId) :
    g.hosted.get? node = (g.nodes.get? node).map (fun _ => .empty) := by
  refine foldlM_keeps (P := fun g => ∀ node, g.hosted.get? node =
    (g.nodes.get? node).map (fun _ => .empty)) (fun g info g' hHosted hAdd node => ?_)
    (fun _ => rfl) h node
  obtain ⟨-, rfl⟩ := (Registry.addNode_eq_ok_iff g g' info).1 hAdd
  simp only [Table.get?_insert, hHosted]
  split <;> rfl

/-! ## Reports -/

/-- The reports of a list on one replica, in their order. -/
def reportsOn (reports : List Report) (id : ContainerId) (node : NodeId) : List Report :=
  reports.filter (fun r => id = r.container ∧ node = r.node)

theorem reportsOn_append (l m : List Report) (id : ContainerId) (node : NodeId) :
    reportsOn (l ++ m) id node = reportsOn l id node ++ reportsOn m id node :=
  List.filter_append ..

namespace Store

theorem flatMap_reportsOn (reports : List Report) (id : ContainerId) (node : NodeId) :
    (reports.map Operation.report).flatMap (fun op => op.reportsOn id node) =
      reportsOn reports id node := by
  induction reports with
  | nil => rfl
  | cons r rest ih =>
    rw [List.map_cons, List.flatMap_cons, ih, reportsOn, reportsOn, List.filter_cons,
      Operation.reportsOn]
    split <;> simp_all

/-- Operations that are accepted in turn lead where their run leads. -/
theorem run_of_accepted {operations : List Operation} {s s' : Store}
    (h : operations.foldlM apply s = .ok s') : s.run operations = s' := by
  induction operations using List.reverseRecOn generalizing s' with
  | nil =>
    cases h
    rfl
  | append_singleton rest op ih =>
    obtain ⟨mid, hMid, hLast⟩ := (foldlM_concat_eq_ok_iff rest op s s').1 h
    rw [run_append, ih hMid]
    show mid.step op = s'
    rw [step, hLast]

/-- Where operations are accepted in turn, all that they report joins the history. -/
theorem historyFrom_of_accepted {operations : List Operation} {s s' : Store}
    (h : operations.foldlM apply s = .ok s') {id : ContainerId} {node : NodeId}
    (hStays : ∀ op ∈ operations, op.drops id node = false) (past : List Report) :
    historyFrom id node s past operations =
      past ++ operations.flatMap (fun op => op.reportsOn id node) := by
  induction operations generalizing s past with
  | nil => simp [historyFrom]
  | cons op rest ih =>
    rw [List.forall_mem_cons] at hStays
    rw [List.foldlM_cons] at h
    cases hFirst : s.apply op with
    | error fault =>
      rw [hFirst] at h
      cases h
    | ok mid =>
      rw [hFirst] at h
      have hNote : s.note id node past op = past ++ op.reportsOn id node := by
        rw [note, hFirst, hStays.1]
        rfl
      have hStep : s.step op = mid := by rw [step, hFirst]
      rw [historyFrom, hStep, hNote, ih h hStays.2, List.flatMap_cons, List.append_assoc]

/-- A report leaves every container as it is. -/
theorem container?_of_report {s s' : Store} {r : Report} (h : s.report r = .ok s')
    (id : ContainerId) : s'.container? id = s.container? id := by
  obtain ⟨e, hEntry, -, rfl⟩ := (report_eq_ok_iff s s' r).1 h
  rw [container?, put, Table.get?_insert]
  split
  · rename_i hId
    rw [hId, container?, hEntry]
    rfl
  · rfl

end Store

namespace ClusterImage

/-- The operations on a store that build these containers and reports. -/
def operationsOf (containers : List Container) (reports : List Report) : List Store.Operation :=
  containers.map .add ++ reports.map .report

/-- A store built of containers and reports is what the run of their operations leaves, and the history
of that run on a replica is the reports on it. -/
theorem run_of_built {containers : List Container} {reports : List Report} {known s : Store}
    (hKnown : storeOf containers = .ok known) (hReports : reports.foldlM Store.report known = .ok s) :
    Store.empty.run (operationsOf containers reports) = s ∧
      ∀ id node, Store.history (operationsOf containers reports) id node =
        reportsOn reports id node := by
  have hPass : (operationsOf containers reports).foldlM Store.apply .empty = .ok s := by
    have hAdded : (containers.map Store.Operation.add).foldlM Store.apply .empty = .ok known := by
      rw [List.foldlM_map]
      exact hKnown
    rw [operationsOf, List.foldlM_append, hAdded]
    show (reports.map Store.Operation.report).foldlM Store.apply known = .ok s
    rw [List.foldlM_map]
    exact hReports
  refine ⟨Store.run_of_accepted hPass, fun id node => ?_⟩
  have hStays : ∀ op ∈ operationsOf containers reports, op.drops id node = false := by
    intro op hOp
    rcases List.mem_append.1 hOp with hAdd | hReport
    · obtain ⟨c, -, rfl⟩ := List.mem_map.1 hAdd
      rfl
    · obtain ⟨r, -, rfl⟩ := List.mem_map.1 hReport
      rfl
  have hNothing : (containers.map Store.Operation.add).flatMap (fun op => op.reportsOn id node) = [] := by
    refine List.flatMap_eq_nil_iff.2 fun op hOp => ?_
    obtain ⟨c, -, rfl⟩ := List.mem_map.1 hOp
    rfl
  rw [Store.history, Store.historyFrom_of_accepted hPass hStays, List.nil_append, operationsOf,
    List.flatMap_append, hNothing, List.nil_append, Store.flatMap_reportsOn]

/-- The pass over the reports leaves every container as it is. -/
theorem container?_of_built {reports : List Report} {known s : Store}
    (hReports : reports.foldlM Store.report known = .ok s) (id : ContainerId) :
    s.container? id = known.container? id :=
  foldlM_keeps (P := fun s => s.container? id = known.container? id)
    (fun _ _ _ hSame hReport => (Store.container?_of_report hReport id).trans hSame) rfl hReports

/-! ## The whole image -/

/-- Let the node of each report host its container, as far as the node is known. -/
def hostAll (g : Registry) (reports : List Report) : Registry :=
  reports.foldl (fun g r => g.track (fun g => g.addContainer r.node r.container)) g

/-- What the registry makes of a report refuses nothing. -/
theorem foldlM_takeReport (reports : List Report) (s : Store) (g : Registry) :
    reports.foldlM takeReport (s, g) =
      (reports.foldlM Store.report s).map (fun s' => (s', hostAll g reports)) := by
  induction reports generalizing s g with
  | nil => rfl
  | cons r rest ih =>
    rw [List.foldlM_cons, List.foldlM_cons, takeReport]
    cases hReport : s.report r with
    | error fault => rfl
    | ok s' => exact ih s' _

/-- The three passes, with what is hosted set apart from what is checked. -/
theorem build_eq (image : ClusterImage) :
    image.build = (do
      let listed ← registryOf image.nodes
      let known ← storeOf image.containers
      (image.reports.foldlM Store.report known).map (fun s => (s, hostAll listed image.reports))) := by
  simp only [build, foldlM_takeReport]

theorem build_eq_ok_iff (image : ClusterImage) (s : Store) (g : Registry) :
    image.build = .ok (s, g) ↔
      ∃ listed known, registryOf image.nodes = .ok listed ∧ storeOf image.containers = .ok known ∧
        image.reports.foldlM Store.report known = .ok s ∧ hostAll listed image.reports = g := by
  rw [build_eq]
  cases registryOf image.nodes with
  | error fault => simp [bind, Except.bind]
  | ok listed =>
    cases storeOf image.containers with
    | error fault => simp [bind, Except.bind]
    | ok known =>
      cases hPass : image.reports.foldlM Store.report known <;>
        simp [bind, Except.bind, Except.map, hPass]

theorem build_eq_error_iff (image : ClusterImage) (fault : Error) :
    image.build = .error fault ↔
      registryOf image.nodes = .error fault ∨
      (∃ listed, registryOf image.nodes = .ok listed) ∧ storeOf image.containers = .error fault ∨
      ∃ listed known, registryOf image.nodes = .ok listed ∧ storeOf image.containers = .ok known ∧
        image.reports.foldlM Store.report known = .error fault := by
  rw [build_eq]
  cases registryOf image.nodes with
  | error why => simp [bind, Except.bind]
  | ok listed =>
    cases storeOf image.containers with
    | error why => simp [bind, Except.bind]
    | ok known =>
      cases hPass : image.reports.foldlM Store.report known <;>
        simp [bind, Except.bind, Except.map, hPass]

theorem keyed_build {image : ClusterImage} {parts : Store × Registry}
    (h : image.build = .ok parts) : parts.1.Keyed := by
  obtain ⟨listed, known, -, hKnown, hReports, -⟩ := (build_eq_ok_iff image parts.1 parts.2).1 h
  rw [← (run_of_built hKnown hReports).1]
  exact Store.keyed_empty.run _

/-! ## What the nodes of an image host -/

/-- The containers that a node hosts after reports, those on other nodes left out. -/
def hostedAfter (set : ContainerSet) (node : NodeId) (reports : List Report) : ContainerSet :=
  reports.foldl (fun set r => if r.node = node then set.insert r.container () else set) set

theorem hostedAfter_concat (set : ContainerSet) (node : NodeId) (reports : List Report) (r : Report) :
    hostedAfter set node (reports ++ [r]) =
      if r.node = node then (hostedAfter set node reports).insert r.container ()
      else hostedAfter set node reports :=
  List.foldl_append

theorem get?_hostedAfter (set : ContainerSet) (node : NodeId) (reports : List Report)
    (id : ContainerId) :
    (hostedAfter set node reports).get? id =
      if reportsOn reports id node = [] then set.get? id else some () := by
  induction reports using List.reverseRecOn with
  | nil => rfl
  | append_singleton rest r ih =>
    rw [hostedAfter_concat, reportsOn_append]
    by_cases hNode : r.node = node
    · rw [if_pos hNode, Table.get?_insert, ih]
      by_cases hId : id = r.container <;> simp [reportsOn, hNode, hId]
    · simp [hNode, ih, reportsOn, Ne.symm hNode]

/-- A node that hosted nothing at first hosts all that was reported on it. -/
theorem mem_keys_hostedAfter (node : NodeId) (reports : List Report) (id : ContainerId) :
    id ∈ (hostedAfter .empty node reports).keys ↔ reportsOn reports id node ≠ [] := by
  rw [Table.mem_keys_iff, get?_hostedAfter]
  split <;> simp_all

theorem nodes_hostAll (g : Registry) (reports : List Report) : (hostAll g reports).nodes = g.nodes := by
  induction reports generalizing g with
  | nil => rfl
  | cons r rest ih =>
    rw [hostAll, List.foldl_cons, ← hostAll, ih]
    exact g.nodes_track_changeContainers r.node _

theorem get?_hosted_hostAll (g : Registry) (reports : List Report) (node : NodeId) :
    (hostAll g reports).hosted.get? node =
      (g.hosted.get? node).map (fun set => hostedAfter set node reports) := by
  induction reports generalizing g with
  | nil => simp [hostAll, hostedAfter]
  | cons r rest ih =>
    have hFirst := g.get?_hosted_track_changeContainers r.node
      (fun set => set.insert r.container ()) node
    rw [hostAll, List.foldl_cons, ← hostAll, ih]
    refine (congrArg (Option.map _) hFirst).trans ?_
    rw [Option.map_map]
    refine congrArg (fun f => Option.map f _) (funext fun set => ?_)
    simp only [Function.comp_apply, hostedAfter, List.foldl_cons, eq_comm]

end ClusterImage

end ReplicaUpkeep
