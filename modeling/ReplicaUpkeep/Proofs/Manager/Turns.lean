import ReplicaUpkeep.Proofs.Manager.Delivery
import ReplicaUpkeep.Proofs.Manager.Planned
import ReplicaUpkeep.Proofs.Queue.Turns

/-!
# When a plan is finished

Rounds of a cluster that stands still work off its plan, as long as the outbox never fills and no flight
lapses.  Every container off balance waits again in every round, so the most urgent take their places
before all others each time, although nothing more is sent for them.  Behind them equals take turns in the
order of their containers.  A container whose turn came has all its planned repairs sent, and one whose turn
did not come has none.  So a plan gets finished if there is room behind the more urgent, and it need not
be finished otherwise, however many rounds there are.
-/

namespace ReplicaUpkeep

namespace Delivery

/-- No round of a run drops anything. -/
def NeverFull (d : Delivery) (ticks : List Tick) : Prop :=
  ∀ past now, past ++ [.round now] <+: ticks → ((d.run past).manager.cycle now).1.dropped = 0

theorem neverFull_nil (d : Delivery) : d.NeverFull [] := by
  intro past now hPast
  simp at hPast

theorem neverFull_cons {d : Delivery} {t : Tick} {rest : List Tick}
    (hFirst : ∀ now, t = .round now → (d.manager.cycle now).1.dropped = 0)
    (hRest : (d.step t).NeverFull rest) : d.NeverFull (t :: rest) := by
  intro past now hPast
  cases past with
  | nil =>
    rw [List.nil_append, List.cons_prefix_cons] at hPast
    exact hFirst now hPast.1.symm
  | cons first others =>
    rw [List.cons_append, List.cons_prefix_cons] at hPast
    obtain ⟨rfl, hOthers⟩ := hPast
    exact hRest others now hOthers

section Round

variable {m : Manager} {d : Delivery} (h : d.Standing m) (now : Moment)
include h

theorem batch_eq :
    d.manager.batch now = ((m.evaluations now).values.foldl WaitingLine.follow
      d.manager.queue.line).toList.take m.config.maxRepairs.toNat := by
  rw [Manager.batch, Manager.line_settledQueue now h.sound h.opened, evaluations_eq h, h.config]

theorem line_round :
    (d.step (.round now)).manager.queue.line = (WaitingLine.batch m.config.maxRepairs.toNat
      ((m.evaluations now).values.foldl WaitingLine.follow d.manager.queue.line)).2 := by
  show (d.manager.cycle now).2.queue.line = _
  rw [Manager.line_cycle, Manager.line_settledQueue now h.sound h.opened, evaluations_eq h, h.config]

/-- At its turn a waiter for whom nothing was accepted before has all its repairs accepted, if nothing
is dropped. -/
theorem acceptedFor_round_of_mem_batch {w : Waiter} (hw : w ∈ d.manager.batch now) {e : Evaluation}
    (hEvaluation : (m.evaluations now).get? w.container = some e) {moments : List Moment}
    (hAloft : d.Aloft w.key moments) (hNothing : d.acceptedFor w.key = [])
    (hDropped : (d.manager.cycle now).1.dropped = 0) :
    (d.step (.round now)).acceptedFor w.key = e.ofKind w.imbalance.repair := by
  rw [← evaluations_eq h] at hEvaluation
  have hNoFlight : d.manager.queue.inflight.flights.get? w.key = none := by
    rcases hAloft with ⟨-, hNone⟩ | ⟨hSome, -⟩
    · exact hNone
    · exact absurd hNothing hSome
  have hSettled := Manager.get?_settledQueue now h.sound h.opened hEvaluation w.imbalance
  rw [← Waiter.key, hNoFlight] at hSettled
  have hZero : (d.manager.settledQueue now).inflightAt w.container w.imbalance.repair now.steady =
      0 := by
    rw [RepairQueue.inflightAt_eq_number]
    refine Inflight.number_of_get?_eq_none ?_ _
    rw [← Waiter.key, hSettled]
    simp [Inflight.cap]
  rw [acceptedFor_round h, hNothing, List.nil_append,
    Manager.sentIn_eq_attempts now h.sound hDropped, Manager.filter_key_attempts now h.sound hw,
    Manager.attempt, Dispatch.attempt, Dispatch.wanted, hEvaluation, hZero]
  rfl

end Round

/-! ## Many rounds -/

section Run

variable {config : Config} {store : Store} {registry : Registry} {ticks : List Tick}
  {es : List Evaluation}

/-- Every round of a run finds the same evaluations. -/
def Steady (m : Manager) (ticks : List Tick) (es : List Evaluation) : Prop :=
  ∀ now ∈ Tick.moments ticks, (m.evaluations now).values = es

theorem Steady.of_prefix {m : Manager} {past : List Tick} (h : Steady m ticks es)
    (hPast : past <+: ticks) : Steady m past es :=
  fun now hNow => h now ((hPast.filterMap Tick.moment?).subset hNow)

theorem Steady.last {m : Manager} {past : List Tick} {now : Moment}
    (h : Steady m (past ++ [.round now]) es) : (m.evaluations now).values = es :=
  h now (by simp [Tick.moments_concat_round])

theorem NeverFull.of_prefix {d : Delivery} {past : List Tick} (h : d.NeverFull ticks)
    (hPast : past <+: ticks) : d.NeverFull past :=
  fun earlier now hEarlier => h earlier now (hEarlier.trans hPast)

variable (hKeyed : store.Keyed) (hIds : (es.map Evaluation.id).Nodup)
include hKeyed hIds

/-- After so many rounds, that many times the places behind the more urgent went to the equals. -/
theorem line_run (hSteady : Steady (.of config store registry) ticks es) :
    ((fresh config store registry).run ticks).manager.queue.line.Fits es ∧
      ∀ u, ((fresh config store registry).run ticks).manager.queue.line.Served es u
        ((Tick.moments ticks).length * (config.maxRepairs.toNat - aheadOf es u)) := by
  induction ticks using List.reverseRecOn with
  | nil =>
    refine ⟨WaitingLine.fits_empty es, fun u => ?_⟩
    rw [Tick.moments, List.filterMap_nil, List.length_nil, Nat.zero_mul]
    exact WaitingLine.served_empty hIds u
  | append_singleton past t ih =>
    obtain ⟨hFits, hServed⟩ := ih (hSteady.of_prefix (List.prefix_append _ _))
    rw [run_concat]
    cases t with
    | collect n =>
      rw [Tick.moments_concat_collect]
      exact ⟨hFits, hServed⟩
    | round now =>
      have hStanding : ((fresh config store registry).run past).Standing
        (.of config store registry) := standing_fresh hKeyed past
      rw [line_round hStanding, hSteady.last, Tick.moments_concat_round, List.length_append,
        List.length_singleton]
      refine ⟨WaitingLine.fits_batch hIds hStanding.sound.queue.line hFits _, fun u => ?_⟩
      rw [Nat.add_one_mul]
      exact WaitingLine.served_batch hIds hStanding.sound.queue.line hFits (hServed u) _

section Round

variable {past : List Tick} {now : Moment}
  (hSteady : Steady (.of config store registry) (past ++ [.round now]) es) {w : Waiter}
  (hw : w ∈ waitersOf es)
include hSteady hw

/-- The turn of a waiter comes when the places of all rounds reach to it. -/
theorem mem_batch_iff (hAscending : (es.map Evaluation.id).Pairwise (· < ·))
    (hNotYet : (Tick.moments past).length * (config.maxRepairs.toNat - aheadOf es w.urgency) ≤
      beforeOf es w) :
    w ∈ ((fresh config store registry).run past).manager.batch now ↔ beforeOf es w <
      (Tick.moments past).length * (config.maxRepairs.toNat - aheadOf es w.urgency) +
        (config.maxRepairs.toNat - aheadOf es w.urgency) := by
  have hStanding : ((fresh config store registry).run past).Standing
    (.of config store registry) := standing_fresh hKeyed past
  obtain ⟨hFits, hServed⟩ := line_run hKeyed hIds (hSteady.of_prefix (List.prefix_append _ _))
  rw [batch_eq hStanding now, hSteady.last]
  exact WaitingLine.mem_take_iff_of_served hIds hStanding.sound.queue.line hFits
    (hServed w.urgency) (getElem?_equalsOf hAscending hw) hNotYet config.maxRepairs.toNat

/-- For a waiter whose turn does not come, nothing is accepted in the round. -/
theorem acceptedFor_run_round_of_notMem
    (hNot : w ∉ ((fresh config store registry).run past).manager.batch now) :
    ((fresh config store registry).run (past ++ [.round now])).acceptedFor w.key =
      ((fresh config store registry).run past).acceptedFor w.key := by
  have hStanding : ((fresh config store registry).run past).Standing
    (.of config store registry) := standing_fresh hKeyed past
  have hFits := (line_run hKeyed hIds (hSteady.of_prefix (List.prefix_append _ _))).1
  have hWaits : w ∈ (((fresh config store registry).run past).manager.settledQueue
      now).line.toList := by
    rw [Manager.line_settledQueue now hStanding.sound hStanding.opened, evaluations_eq hStanding,
      hSteady.last]
    exact (WaitingLine.perm_toList_foldl_follow hIds hStanding.sound.queue.line hFits).mem_iff.2 hw
  rw [run_concat, acceptedFor_round hStanding,
    Manager.filter_key_sentIn_eq_nil_of_notMem now hStanding.sound hWaits hNot, List.append_nil]

end Round

/-- A waiter has all its repairs accepted once its turn came, and none before. -/
theorem acceptedFor_run (hCountable : store.Countable)
    (hAscending : (es.map Evaluation.id).Pairwise (· < ·)) {e : Evaluation} (he : e ∈ es) {w : Waiter}
    (hWaiter : e.waiter? = some w) (hWithin : Tick.Within config.inflightTimeout ticks)
    (hSteady : Steady (.of config store registry) ticks es)
    (hRoom : (fresh config store registry).NeverFull ticks) :
    ((fresh config store registry).run ticks).acceptedFor w.key =
      if beforeOf es w <
          (Tick.moments ticks).length * (config.maxRepairs.toNat - aheadOf es w.urgency) then
        e.ofKind w.imbalance.repair
      else [] := by
  have hw : w ∈ waitersOf es := (mem_waitersOf_iff es w).2 ⟨e, he, hWaiter⟩
  have hOwn := Evaluation.container_of_waiter? hWaiter
  have hKey : w.key = ⟨e.id, w.imbalance.repair⟩ := by rw [Waiter.key, hOwn]
  induction ticks using List.reverseRecOn with
  | nil => simp [Tick.moments]; rfl
  | append_singleton past t ih =>
    have hPast : past <+: past ++ [t] := List.prefix_append _ _
    have hSoFar := ih (hWithin.of_prefix hPast) (hSteady.of_prefix hPast) (hRoom.of_prefix hPast)
    cases t with
    | collect n => rw [acceptedFor_concat_collect, hSoFar, Tick.moments_concat_collect]
    | round now =>
      have hProper := Manager.proper_evaluations now (Manager.sound_of config hKeyed registry)
      have hEvaluation := hProper.get?_id (hSteady.last ▸ he)
      obtain ⟨entry, hEntry, rfl⟩ := Option.map_eq_some_iff.1
        ((Manager.get?_evaluations _ now e.id).symm.trans hEvaluation)
      have hWord := fun lookup => hCountable.needed_lt hEntry lookup w.imbalance
      obtain ⟨hAloft, hBound⟩ := aloft_run registry hKeyed hEntry w.imbalance hWord
        (hWithin.of_prefix hPast)
      rw [Tick.moments_concat_round, List.length_append, List.length_singleton, Nat.add_one_mul]
      by_cases hDone : beforeOf es w <
          (Tick.moments past).length * (config.maxRepairs.toNat - aheadOf es w.urgency)
      · -- Its turn is over, and nothing is left of its list.
        rw [if_pos hDone] at hSoFar
        obtain ⟨new, hStep, hContinues, -⟩ :=
          run_round hKeyed hEntry w.imbalance hWord hWithin hAloft hBound
        rw [← hKey, hSoFar] at hStep hContinues
        have hNone : new = [] := by
          rw [← List.prefix_nil, ← List.drop_length]
          exact hContinues
        rw [hStep, hNone, List.append_nil, if_pos (Nat.lt_of_lt_of_le hDone (Nat.le_add_right _ _))]
      · -- Its turn comes now, or it is still to come.
        rw [if_neg hDone] at hSoFar
        have hTurn := mem_batch_iff hKeyed hIds hSteady hw hAscending (Nat.le_of_not_lt hDone)
        split
        · rename_i hNow
          rw [run_concat]
          exact acceptedFor_round_of_mem_batch (standing_fresh hKeyed past) now (hTurn.2 hNow)
            (hOwn ▸ hEvaluation) (hKey ▸ hAloft) hSoFar (hRoom past now List.prefix_rfl)
        · rename_i hLater
          rw [acceptedFor_run_round_of_notMem hKeyed hIds hSteady hw (mt hTurn.1 hLater), hSoFar]

end Run

end Delivery

/-- Repeated rounds finish a plan where everybody gets a turn.  A manager is made for a cluster that stands
still and goes through rounds within one timeout, of which none drops anything.  All repairs that the
plan lists for a waiter are accepted if in so many rounds the places behind the more urgent reach to it,
and none of them otherwise; and the plan lists repairs for waiters only.  So the plan's repairs are finished
after enough rounds for all containers off balance, provided that these are all equally urgent, or no
more than one round repairs.  A run in which every deadline is checked as it is set has accepted the same as
far as it comes, and it comes to its end if the clock can show them all. -/
theorem repairs_take_turns (config : Config) (operations : List Store.Operation)
    (registry : Registry) (wall : Timestamp) (ticks : List Tick)
    (hCountable : (Store.empty.run operations).Countable)
    (hLookup : ∀ now ∈ Tick.moments ticks, registry.lookup? now.wall = registry.lookup? wall)
    (hWithin : Tick.Within config.inflightTimeout ticks)
    (hRoom : (Delivery.fresh config (Store.empty.run operations) registry).NeverFull ticks) :
    let store := Store.empty.run operations
    let es := (store.findings (registry.lookup? wall)).evaluations
    let planned := fun key =>
      (ClusterPlan.of (store, registry) wall).directives.filter fun d => d.key = key
    let accepted := fun key => ((Delivery.fresh config store registry).run ticks).acceptedFor key
    let rounds := (Tick.moments ticks).length
    (∀ w ∈ waitersOf es, accepted w.key =
      if beforeOf es w < rounds * (config.maxRepairs.toNat - aheadOf es w.urgency) then planned w.key
      else []) ∧
    (∀ d ∈ (ClusterPlan.of (store, registry) wall).directives, d.kind ≠ .close →
      ∃ w ∈ waitersOf es, d.key = w.key) ∧
    (((∀ v ∈ waitersOf es, ∀ w ∈ waitersOf es, v.urgency = w.urgency) ∨
        es.countP Evaluation.isOffBalance ≤ config.maxRepairs.toNat) →
      es.countP Evaluation.isOffBalance ≤ rounds * config.maxRepairs.toNat →
      ∀ d ∈ (ClusterPlan.of (store, registry) wall).directives, d.kind ≠ .close →
        accepted d.key = planned d.key) ∧
    (∀ past d, (Delivery.fresh config store registry).run? past = some d →
      d = (Delivery.fresh config store registry).run past) ∧
    ((∀ now ∈ Tick.moments ticks, (Manager.of config store registry).canStamp now = true) →
      (Delivery.fresh config store registry).run? ticks =
        some ((Delivery.fresh config store registry).run ticks)) := by
  intro store es planned accepted rounds
  have hKeyed : store.Keyed := Store.keyed_empty.run operations
  have hSound := Manager.sound_of config hKeyed registry
  let now : Moment := ⟨wall, 0⟩
  have hEs : es = ((Manager.of config store registry).evaluations now).values :=
    Store.evaluations_findings store _
  have hAscending : (es.map Evaluation.id).Pairwise (· < ·) := by
    rw [hEs]
    exact (Manager.proper_evaluations now hSound).id_ascending
  have hIds : (es.map Evaluation.id).Nodup := by
    rw [hEs]
    exact (Manager.proper_evaluations now hSound).nodup_id
  have hSteady : Delivery.Steady (.of config store registry) ticks es := by
    intro later hLater
    rw [hEs]
    exact congrArg Table.values (Manager.evaluations_congr rfl (hLookup later hLater))
  -- The plan lists for a waiter what its evaluation lists, and that is sent at its turn.
  have hTurns : ∀ w ∈ waitersOf es, accepted w.key =
      if beforeOf es w < rounds * (config.maxRepairs.toNat - aheadOf es w.urgency) then planned w.key
      else [] := by
    intro w hw
    obtain ⟨e, he, hWaiter⟩ := (mem_waitersOf_iff es w).1 hw
    have hPlanned : planned w.key = e.ofKind w.imbalance.repair := by
      rw [Waiter.key, Evaluation.container_of_waiter? hWaiter,
        ← Manager.listed_of_mem now hSound (hEs ▸ he)]
      exact Manager.filter_key_directives_plan now hSound _ _
    rw [hPlanned]
    exact Delivery.acceptedFor_run hKeyed hIds hCountable hAscending he hWaiter hWithin hSteady hRoom
  have hWaiters : ∀ d ∈ (ClusterPlan.of (store, registry) wall).directives, d.kind ≠ .close →
      ∃ w ∈ waitersOf es, d.key = w.key := by
    intro d hd hRepair
    obtain ⟨e, he, w, hWaiter, hKey⟩ :=
      Manager.exists_waiter_of_mem_directives_plan now hSound hd hRepair
    exact ⟨w, (mem_waitersOf_iff es w).2 ⟨e, hEs ▸ he, hWaiter⟩, hKey⟩
  refine ⟨hTurns, hWaiters, fun hAllowed hEnough d hd hRepair => ?_,
    fun past d hPast => Delivery.eq_run_of_run? hPast,
    fun hStamp => Delivery.run?_of_canStamp hStamp⟩
  obtain ⟨w, hw, hKey⟩ := hWaiters d hd hRepair
  rw [← length_waitersOf] at hAllowed hEnough
  have hReached := beforeOf_lt_of_enough hw
    (hAllowed.imp_left fun hEqual v hv => hEqual v hv w hw) hEnough
  rw [hKey, hTurns w hw, if_pos hReached]

/-- With two places a round, the first container takes one in every round, and the two others share the
second place: one is repaired in the first round and the other in the second. -/
theorem repairs_take_turns_of_three :
    let day : Timestamp := ⟨⟨2024, 1, 1, 0, 0, 0, 0⟩, by decide⟩
    let status : NodeStatus := ⟨.inService, .healthy, none⟩
    let config : Config := { Config.default with maxRepairs := 2 }
    let operations : List Store.Operation :=
      [.add ⟨⟨1⟩, .closed, 2, 0⟩, .report ⟨⟨1⟩, "a", .closed, some 7, some "a", false⟩,
        .add ⟨⟨2⟩, .closed, 3, 0⟩, .report ⟨⟨2⟩, "a", .closed, some 7, some "a", false⟩,
        .report ⟨⟨2⟩, "b", .closed, some 7, some "a", false⟩,
        .add ⟨⟨3⟩, .closed, 3, 0⟩, .report ⟨⟨3⟩, "a", .closed, some 7, some "a", false⟩,
        .report ⟨⟨3⟩, "b", .closed, some 7, some "a", false⟩]
    let registry : Registry :=
      (ClusterImage.registryOf [⟨"a", "", status⟩, ⟨"b", "", status⟩]).toOption.getD .empty
    let store := Store.empty.run operations
    let ticks : List Tick := [.round ⟨day, 0⟩, .round ⟨day, 1⟩]
    let third : Waiter := ⟨⟨3⟩, .shortage, 2⟩
    let accepted := fun ticks => ((Delivery.fresh config store registry).run ticks).acceptedFor third.key
    store.Countable ∧ Tick.Within config.inflightTimeout ticks ∧
      (Delivery.fresh config store registry).NeverFull ticks ∧
      accepted (ticks.take 1) = [] ∧ accepted ticks = [.replicate ⟨3⟩ none] ∧
      accepted ticks = (ClusterPlan.of (store, registry) day).directives.filter
        (fun d => d.key = third.key) ∧
      (Delivery.fresh config store registry).run? ticks =
        some ((Delivery.fresh config store registry).run ticks) := by
  intro day status config operations registry store ticks third accepted
  have hCountable : store.Countable := by decide +kernel
  have hWithin : Tick.Within config.inflightTimeout ticks := by decide +kernel
  have hRoom : (Delivery.fresh config store registry).NeverFull ticks := by
    refine Delivery.neverFull_cons ?_ (Delivery.neverFull_cons ?_ (Delivery.neverFull_nil _))
    · rintro now ⟨⟩
      decide +kernel
    · rintro now ⟨⟩
      decide +kernel
  have hLookup : ∀ now ∈ Tick.moments ticks,
      registry.lookup? now.wall = registry.lookup? day := by
    intro now hNow
    simp only [ticks, Tick.moments, List.filterMap_cons, Tick.moment?, List.filterMap_nil,
      List.mem_cons, List.not_mem_nil, or_false] at hNow
    rcases hNow with rfl | rfl <;> rfl
  obtain ⟨hTurns, -, -, -, hEnds⟩ :=
    repairs_take_turns config operations registry day ticks hCountable hLookup hWithin hRoom
  have hThird : third ∈ waitersOf (store.findings (registry.lookup? day)).evaluations := by
    decide +kernel
  have hReached : beforeOf (store.findings (registry.lookup? day)).evaluations third <
      (Tick.moments ticks).length * (config.maxRepairs.toNat -
        aheadOf (store.findings (registry.lookup? day)).evaluations third.urgency) := by
    decide +kernel
  have hStamp : ∀ now ∈ Tick.moments ticks,
      (Manager.of config store registry).canStamp now = true := by
    decide +kernel
  exact ⟨hCountable, hWithin, hRoom, by decide +kernel, by decide +kernel,
    (hTurns third hThird).trans (if_pos hReached), hEnds hStamp⟩

/-- The proviso is a real one.  One repair fits into a round, and two containers are off balance, so two
rounds have places enough; but the first container is more urgent and takes the place again when its
repair is already in flight, so the copy of the second is never sent. -/
theorem plan_unfinished_behind_urgent :
    let day : Timestamp := ⟨⟨2024, 1, 1, 0, 0, 0, 0⟩, by decide⟩
    let status : NodeStatus := ⟨.inService, .healthy, none⟩
    let config : Config := { Config.default with maxRepairs := 1 }
    let operations : List Store.Operation :=
      [.add ⟨⟨1⟩, .closed, 2, 0⟩, .report ⟨⟨1⟩, "a", .closed, some 7, some "a", false⟩,
        .add ⟨⟨2⟩, .closed, 3, 0⟩, .report ⟨⟨2⟩, "a", .closed, some 7, some "a", false⟩,
        .report ⟨⟨2⟩, "b", .closed, some 7, some "a", false⟩]
    let registry : Registry :=
      (ClusterImage.registryOf [⟨"a", "", status⟩, ⟨"b", "", status⟩]).toOption.getD .empty
    let store := Store.empty.run operations
    let ticks : List Tick := [.round ⟨day, 0⟩, .round ⟨day, 1⟩]
    store.Countable ∧ Tick.Within config.inflightTimeout ticks ∧
      (Delivery.fresh config store registry).NeverFull ticks ∧
      (store.findings (registry.lookup? day)).evaluations.countP Evaluation.isOffBalance ≤
        config.maxRepairs.toNat * (Tick.moments ticks).length ∧
      .replicate ⟨2⟩ none ∈ (ClusterPlan.of (store, registry) day).directives ∧
      .replicate ⟨2⟩ none ∉ ((Delivery.fresh config store registry).run ticks).accepted := by
  intro day status config operations registry store ticks
  have hRoom : (Delivery.fresh config store registry).NeverFull ticks := by
    refine Delivery.neverFull_cons ?_ (Delivery.neverFull_cons ?_ (Delivery.neverFull_nil _))
    · rintro now ⟨⟩
      decide +kernel
    · rintro now ⟨⟩
      decide +kernel
  exact ⟨by decide +kernel, by decide +kernel, hRoom, by decide +kernel, by decide +kernel,
    by decide +kernel⟩

end ReplicaUpkeep
