import ReplicaUpkeep.Proofs.Verdict.Finality

/-!
# Why a container is stuck

Of the checks that a quasi-closed container fails a verdict names the first.  The order matters, as
several can fail at once: a replica that is still written to may be the very reason for which no sealed
one is as far as any.  Here the named reason is compared with the live replicas themselves.
-/

namespace ReplicaUpkeep

/-- The first check that live replicas fail: nobody may write, enough must be reported, a sealed one
must be as far as any, and no two of the sealed ones that are as far may have one origin. -/
inductive FirstFails (factor : Nat) (live : List Replica) : Verdict.Reason → Prop
  | writable (hOpen : ∃ r ∈ live, r.state ∈ ReplicaState.writable) : FirstFails factor live .writable
  | missingReports (hQuiet : ∀ r ∈ live, r.state ∉ ReplicaState.writable)
    (hFew : live.length < factor) : FirstFails factor live .missingReports
  | noEligible (hQuiet : ∀ r ∈ live, r.state ∉ ReplicaState.writable)
    (hReported : factor ≤ live.length)
    (hBehind : ∀ r ∈ live, r.state ∈ ReplicaState.sealed → ¬ r.IsLatestOf live) :
    FirstFails factor live .noEligible
  | duplicateOrigin (hQuiet : ∀ r ∈ live, r.state ∉ ReplicaState.writable)
    (hReported : factor ≤ live.length)
    (a b : Replica) (hTwo : [a, b].Sublist live)
    (hSealed : a.state ∈ ReplicaState.sealed ∧ b.state ∈ ReplicaState.sealed)
    (hLatest : a.IsLatestOf live ∧ b.IsLatestOf live)
    (origin : NodeId) (hOrigin : a.origin = some origin ∧ b.origin = some origin) :
    FirstFails factor live .duplicateOrigin

namespace Snapshot

variable (s : Snapshot)

theorem any_writable_iff :
    s.any .writable = true ↔ ∃ r ∈ s.replicas, r.state ∈ ReplicaState.writable :=
  s.any_inStates_iff ReplicaState.writable

theorem isEmpty_eligible_iff :
    s.eligible.isEmpty = true ↔
      ∀ r ∈ s.replicas, r.state ∈ ReplicaState.sealed → ¬ r.IsLatestOf s.replicas := by
  simp only [List.isEmpty_iff, List.eq_nil_iff_forall_not_mem, mem_eligible]
  exact ⟨fun h r hr hSealed hLatest => h r ⟨hr, hSealed, hLatest⟩,
    fun h r ⟨hr, hSealed, hLatest⟩ => h r hr hSealed hLatest⟩

/-- Origins are ambiguous if two replicas at different places of the snapshot, both sealed and as far as
any, have the same. -/
theorem isAmbiguous_eligible_iff :
    (Origins.ofReplicas s.eligible).isAmbiguous = true ↔
      ∃ a b, [a, b].Sublist s.replicas ∧
        (a.state ∈ ReplicaState.sealed ∧ b.state ∈ ReplicaState.sealed) ∧
        (a.IsLatestOf s.replicas ∧ b.IsLatestOf s.replicas) ∧
        ∃ origin, a.origin = some origin ∧ b.origin = some origin := by
  rw [← Bool.not_eq_false, Origins.isAmbiguous_ofReplicas_eq_false_iff_pairwise,
    pairwise_eligible_iff, List.pairwise_iff_forall_sublist]
  simp only [not_forall, ne_eq, not_not, exists_prop, and_assoc]

/-- The verdict names the first check that fails. -/
theorem reason_eq :
    s.verdict.reason =
      if s.any .writable then .writable
      else if s.replicas.length < s.factor then .missingReports
      else if s.eligible.isEmpty then .noEligible
      else if (Origins.ofReplicas s.eligible).isAmbiguous then .duplicateOrigin
      else .resolved := by
  have hFew : (!s.verdict.fullPicture) = decide (s.replicas.length < s.factor) := by
    have hNot : decide (¬ s.factor ≤ s.size) = decide (s.size < s.factor) :=
      decide_eq_decide.2 Nat.not_le
    rw [decide_not] at hNot
    exact hNot
  have hNone : s.verdict.noEligible = s.eligible.isEmpty := List.isEmpty_map
  simp only [Verdict.reason, blockingOpen_eq_any, hFew, hNone, decide_eq_true_eq]
  rfl

/-- The reason of a stuck container is the first check that its live replicas fail. -/
theorem firstFails_reason (hStuck : s.verdict.stuck = true) :
    FirstFails s.factor s.replicas s.verdict.reason := by
  rw [reason_eq]
  split
  · rename_i hOpen
    exact .writable (s.any_writable_iff.1 hOpen)
  rename_i hOpen
  have hQuiet := s.any_writable_eq_false_iff.1 (Bool.eq_false_iff.2 hOpen)
  split
  · rename_i hFew
    exact .missingReports hQuiet hFew
  rename_i hFew
  have hReported : s.factor ≤ s.replicas.length := Nat.le_of_not_lt hFew
  split
  · rename_i hNone
    exact .noEligible hQuiet hReported (s.isEmpty_eligible_iff.1 hNone)
  rename_i hNone
  have hSome : s.eligible ≠ [] := fun h => hNone (List.isEmpty_iff.2 h)
  split
  · rename_i hTwice
    obtain ⟨a, b, hTwo, hSealed, hLatest, origin, hOrigin⟩ := s.isAmbiguous_eligible_iff.1 hTwice
    exact .duplicateOrigin hQuiet hReported a b hTwo hSealed hLatest origin hOrigin
  · -- With every check passed the verdict is not stuck.
    rename_i hTwice
    have hPassed := s.stuck_eq_false_iff_checks.2
      ⟨Bool.eq_false_iff.2 hOpen, hReported, hSome, Bool.eq_false_iff.2 hTwice⟩
    rw [hStuck] at hPassed
    cases hPassed

/-- At most one check is the first to fail. -/
theorem reason_of_firstFails {reason : Verdict.Reason}
    (h : FirstFails s.factor s.replicas reason) : s.verdict.reason = reason := by
  rw [reason_eq]
  cases h with
  | writable hOpen => rw [if_pos (s.any_writable_iff.2 hOpen)]
  | missingReports hQuiet hFew =>
    rw [s.any_writable_eq_false_iff.2 hQuiet]
    exact if_pos hFew
  | noEligible hQuiet hReported hBehind =>
    rw [s.any_writable_eq_false_iff.2 hQuiet]
    rw [if_neg Bool.false_ne_true, if_neg (Nat.not_lt.2 hReported),
      if_pos (s.isEmpty_eligible_iff.2 hBehind)]
  | duplicateOrigin hQuiet hReported a b hTwo hSealed hLatest origin hOrigin =>
    have hSome : ¬ s.eligible.isEmpty = true := fun hNone =>
      s.isEmpty_eligible_iff.1 hNone a (hTwo.subset (by simp)) hSealed.1 hLatest.1
    have hTwice := s.isAmbiguous_eligible_iff.2
      ⟨a, b, hTwo, hSealed, hLatest, origin, hOrigin⟩
    rw [s.any_writable_eq_false_iff.2 hQuiet]
    rw [if_neg Bool.false_ne_true, if_neg (Nat.not_lt.2 hReported), if_neg hSome, if_pos hTwice]

end Snapshot

end ReplicaUpkeep
