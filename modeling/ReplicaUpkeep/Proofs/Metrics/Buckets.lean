import Mathlib.Data.List.Forall2
import ReplicaUpkeep.Metrics.Histogram
import ReplicaUpkeep.Proofs.Decimal.Comparing

/-!
# What the buckets of a histogram count

A value is counted once, at the first boundary that it does not exceed, and the counts are added up again
when they are read.  So what is read at a boundary is how many values do not exceed that boundary or one
before it, in whatever order the boundaries come.  This is carried by one invariant: after any run of
observations each count has grown by the number of values whose place it is.

Counts are words.  As long as fewer values were observed than words can count, they are exact.
-/

namespace ReplicaUpkeep

namespace Histogram

/-! ## One observation after another -/

/-- How many of the values have a place. -/
def tally (h : Histogram) (values : List Float) (i : Nat) : Nat :=
  values.countP fun v => h.place v = i

theorem place_le (h : Histogram) (v : Float) : h.place v ≤ h.boundaries.length :=
  List.findIdx_le_length

/-- An observation raises one count. -/
theorem buckets_observe (h : Histogram) (v : Float) :
    (h.observe v).buckets = h.buckets.mapIdx fun i n => n + UInt64.ofNat (h.tally [v] i) := by
  refine List.ext_getElem? fun i => ?_
  rw [observe, List.getElem?_modify, List.getElem?_mapIdx]
  by_cases hPlace : h.place v = i <;> simp [tally, hPlace]

theorem tally_cons (h : Histogram) (v : Float) (values : List Float) (i : Nat) :
    h.tally (v :: values) i = h.tally [v] i + h.tally values i := by
  rw [tally, ← List.singleton_append, List.countP_append]
  rfl

/-- A run of observations raises every count by the number of values that have its place. -/
theorem buckets_foldl_observe (h : Histogram) (values : List Float) :
    (values.foldl observe h).buckets =
      h.buckets.mapIdx fun i n => n + UInt64.ofNat (h.tally values i) := by
  induction values generalizing h with
  | nil =>
    refine List.ext_getElem? fun i => ?_
    simp [tally]
  | cons v rest ih =>
    rw [List.foldl_cons, ih, buckets_observe, List.mapIdx_mapIdx]
    refine List.mapIdx_eq_mapIdx_iff.2 fun i _ => ?_
    rw [h.tally_cons v rest, UInt64.ofNat_add, ← UInt64.add_assoc]
    rfl

theorem boundaries_foldl_observe (h : Histogram) (values : List Float) :
    (values.foldl observe h).boundaries = h.boundaries := by
  induction values generalizing h with
  | nil => rfl
  | cons v rest ih => exact ih (h.observe v)

theorem count_foldl_observe (h : Histogram) (values : List Float) :
    (values.foldl observe h).count = h.count + UInt64.ofNat values.length := by
  induction values generalizing h with
  | nil => simp
  | cons v rest ih =>
    have hOne : (h.observe v).count = h.count + 1 := rfl
    rw [List.foldl_cons, ih, hOne, List.length_cons, Nat.add_comm, UInt64.ofNat_add,
      ← UInt64.add_assoc]
    rfl

/-! ## Adding the counts up -/

/-- How many of the values have a place up to this one. -/
def tallyUpTo (h : Histogram) (values : List Float) (i : Nat) : Nat :=
  values.countP fun v => h.place v ≤ i

theorem tallyUpTo_zero (h : Histogram) (values : List Float) :
    h.tallyUpTo values 0 = h.tally values 0 := by
  simp only [tallyUpTo, tally, Nat.le_zero]

theorem tallyUpTo_succ (h : Histogram) (values : List Float) (i : Nat) :
    h.tallyUpTo values (i + 1) = h.tallyUpTo values i + h.tally values (i + 1) := by
  induction values with
  | nil => rfl
  | cons v rest ih =>
    simp only [tallyUpTo, tally, List.countP_cons, decide_eq_true_eq] at ih ⊢
    split <;> split <;> split <;> omega

theorem tallyUpTo_mono (h : Histogram) (values : List Float) {i j : Nat} (hij : i ≤ j) :
    h.tallyUpTo values i ≤ h.tallyUpTo values j := by
  refine List.countP_mono_left fun v _ hPlace => ?_
  simp only [decide_eq_true_eq] at hPlace ⊢
  omega

theorem tallyUpTo_le (h : Histogram) (values : List Float) (i : Nat) :
    h.tallyUpTo values i ≤ values.length :=
  List.countP_le_length

/-- Every value has a place. -/
theorem tallyUpTo_length (h : Histogram) (values : List Float) :
    h.tallyUpTo values h.boundaries.length = values.length :=
  List.countP_eq_length.2 fun v _ => decide_eq_true (h.place_le v)

/-- The running totals of the tallies behind a place tell how many values have a place up to each. -/
theorem totals_tally (h : Histogram) (values : List Float) (i n : Nat) :
    totals (UInt64.ofNat (h.tallyUpTo values i))
        ((List.range' (i + 1) n).map fun j => UInt64.ofNat (h.tally values j)) =
      (List.range' (i + 1) n).map fun j => UInt64.ofNat (h.tallyUpTo values j) := by
  induction n generalizing i with
  | zero => rfl
  | succ n ih =>
    rw [List.range'_succ, List.map_cons, List.map_cons, totals, ← UInt64.ofNat_add,
      ← tallyUpTo_succ, ih]

/-! ## What is read -/

/-- The histogram over boundaries after a run of observations. -/
def ofValues (boundaries values : List Float) : Histogram :=
  values.foldl observe (ofBoundaries boundaries)

/-- The counts that are read, without their boundaries. -/
def counts (h : Histogram) : List UInt64 :=
  h.cumulative.map Prod.snd

/-- The value does not exceed one of the boundaries. -/
def Within (boundaries : List Float) (v : Float) : Prop :=
  ∃ b ∈ boundaries, v ≤ b

instance (boundaries : List Float) (v : Float) : Decidable (Within boundaries v) :=
  inferInstanceAs (Decidable (∃ b ∈ boundaries, v ≤ b))

section Read

variable (boundaries values : List Float)

theorem buckets_ofValues :
    (ofValues boundaries values).buckets =
      (List.range (boundaries.length + 1)).map fun i =>
        UInt64.ofNat ((ofBoundaries boundaries).tally values i) := by
  refine List.ext_getElem? fun i => ?_
  rw [ofValues, buckets_foldl_observe, List.getElem?_mapIdx, List.getElem?_map, ofBoundaries,
    List.getElem?_replicate]
  by_cases hi : i < boundaries.length + 1 <;> simp [hi]

theorem length_entries_ofValues :
    ((ofValues boundaries values).boundaries ++ [Float.ofBits 0x7FF0000000000000]).length =
      boundaries.length + 1 := by
  rw [ofValues, boundaries_foldl_observe, List.length_append]
  rfl

/-- At each entry it is read how many values have a place up to it. -/
theorem totals_ofValues :
    totals 0 (ofValues boundaries values).buckets =
      (List.range (boundaries.length + 1)).map fun i =>
        UInt64.ofNat ((ofBoundaries boundaries).tallyUpTo values i) := by
  rw [buckets_ofValues, List.range_eq_range', List.range'_succ, List.map_cons, totals,
    UInt64.zero_add, ← tallyUpTo_zero, totals_tally]
  rfl

theorem boundaries_cumulative :
    (ofValues boundaries values).cumulative.map Prod.fst =
      boundaries ++ [Float.ofBits 0x7FF0000000000000] := by
  have hLength := length_entries_ofValues boundaries values
  rw [cumulative, totals_ofValues, List.map_fst_zip (by simp [hLength]), ofValues,
    boundaries_foldl_observe]
  rfl

theorem counts_ofValues :
    (ofValues boundaries values).counts =
      (List.range (boundaries.length + 1)).map fun i =>
        UInt64.ofNat ((ofBoundaries boundaries).tallyUpTo values i) := by
  have hLength := length_entries_ofValues boundaries values
  rw [counts, cumulative, totals_ofValues, List.map_snd_zip (by simp [hLength])]

theorem count_ofValues :
    (ofValues boundaries values).count = UInt64.ofNat values.length := by
  rw [ofValues, count_foldl_observe]
  exact UInt64.zero_add _

end Read

/-- A value has its place at a boundary or before exactly if it is within one of these. -/
theorem place_le_iff {boundaries : List Float} {i : Nat} (hi : i < boundaries.length) (v : Float) :
    (ofBoundaries boundaries).place v ≤ i ↔ Within (boundaries.take (i + 1)) v := by
  have hFound : (boundaries.take (i + 1)).findIdx (fun b => v ≤ b) <
      (boundaries.take (i + 1)).length ↔ Within (boundaries.take (i + 1)) v := by
    rw [List.findIdx_lt_length]
    simp [Within]
  rw [← hFound, List.findIdx_take, List.length_take]
  change boundaries.findIdx (fun b => v ≤ b) ≤ i ↔ _
  omega

/-- The last of ascending boundaries takes in whatever the ones before it do. -/
theorem within_take_iff {boundaries : List Float} (hAscending : boundaries.Pairwise (· ≤ ·))
    {i : Nat} {b : Float} (hb : boundaries[i]? = some b) (v : Float) :
    Within (boundaries.take (i + 1)) v ↔ v ≤ b := by
  have hTake : boundaries.take (i + 1) = boundaries.take i ++ [b] := by
    rw [List.take_add_one, hb]
    rfl
  have hBefore := hAscending.sublist (List.take_sublist (i + 1) boundaries)
  rw [hTake, List.pairwise_append] at hBefore
  rw [hTake]
  constructor
  · rintro ⟨c, hc, hv⟩
    rcases List.mem_append.1 hc with hEarlier | hLast
    · exact Decimal.float_le_trans hv (hBefore.2.2 c hEarlier b List.mem_cons_self)
    · rwa [List.mem_singleton.1 hLast] at hv
  · exact fun hv => ⟨b, List.mem_append_right _ List.mem_cons_self, hv⟩

theorem place_of_not_within {boundaries : List Float} {v : Float} (h : ¬ Within boundaries v) :
    (ofBoundaries boundaries).place v = boundaries.length := by
  refine Nat.le_antisymm (place_le _ v) (Nat.le_of_not_lt fun hFound => h ?_)
  obtain ⟨b, hb, hv⟩ := List.findIdx_lt_length.1 hFound
  exact ⟨b, hb, of_decide_eq_true hv⟩

/-- Values that compare alike with the boundaries have the same place. -/
theorem place_congr {boundaries boundaries' : List Float} {v v' : Float}
    (h : List.Forall₂ (fun b b' => v ≤ b ↔ v' ≤ b') boundaries boundaries') :
    (ofBoundaries boundaries).place v = (ofBoundaries boundaries').place v' := by
  change boundaries.findIdx (fun b => v ≤ b) = boundaries'.findIdx (fun b => v' ≤ b)
  induction h with
  | nil => rw [List.findIdx_nil, List.findIdx_nil]
  | cons hHead _ ih => rw [List.findIdx_cons, List.findIdx_cons, ih, decide_eq_decide.2 hHead]

theorem tallyUpTo_congr {h h' : Histogram} {values values' : List Float}
    (hPlaces : List.Forall₂ (fun v v' => h.place v = h'.place v') values values') (i : Nat) :
    h.tallyUpTo values i = h'.tallyUpTo values' i := by
  induction hPlaces with
  | nil => rfl
  | cons hHead _ ih =>
    simp only [tallyUpTo, List.countP_cons, hHead] at ih ⊢
    rw [ih]

/-- What is read from the histogram over boundaries after a run of observations. -/
structure Reads (boundaries values : List Float) : Prop where
  /-- One entry for each boundary in order, and one behind them. -/
  entries : (ofValues boundaries values).cumulative.map Prod.fst =
    boundaries ++ [Float.ofBits 0x7FF0000000000000]
  counted : ∀ i, i < boundaries.length →
    (ofValues boundaries values).counts[i]?.map UInt64.toNat =
      some (values.countP fun v => Within (boundaries.take (i + 1)) v)
  ascending : boundaries.Pairwise (· ≤ ·) → ∀ (i : Nat) (b : Float), boundaries[i]? = some b →
    (ofValues boundaries values).counts[i]?.map UInt64.toNat =
      some (values.countP fun v => v ≤ b)
  growing : (ofValues boundaries values).counts.Pairwise (· ≤ ·)
  last : (ofValues boundaries values).counts.getLast? = some (ofValues boundaries values).count
  count : (ofValues boundaries values).count.toNat = values.length

section Exact

variable {boundaries values : List Float} (hFew : values.length < UInt64.size)
include hFew

theorem toNat_tallyUpTo (h : Histogram) (i : Nat) :
    (UInt64.ofNat (h.tallyUpTo values i)).toNat = h.tallyUpTo values i :=
  UInt64.toNat_ofNat_of_lt' (Nat.lt_of_le_of_lt (h.tallyUpTo_le values i) hFew)

theorem getElem?_counts {i : Nat} (hi : i < boundaries.length) :
    (ofValues boundaries values).counts[i]?.map UInt64.toNat =
      some (values.countP fun v => Within (boundaries.take (i + 1)) v) := by
  have hTally : (ofBoundaries boundaries).tallyUpTo values i =
      values.countP fun v => Within (boundaries.take (i + 1)) v :=
    List.countP_congr fun v _ => by rw [decide_eq_true_eq, decide_eq_true_eq, place_le_iff hi]
  rw [counts_ofValues, List.getElem?_map, List.getElem?_range (by omega), Option.map_some,
    Option.map_some, toNat_tallyUpTo hFew, hTally]

theorem reads_ofValues : Reads boundaries values where
  entries := boundaries_cumulative boundaries values
  counted := fun _ hi => getElem?_counts hFew hi
  ascending := by
    intro hAscending i b hb
    obtain ⟨hi, -⟩ := List.getElem?_eq_some_iff.1 hb
    rw [getElem?_counts hFew hi]
    exact congrArg some (List.countP_congr fun v _ => by
      rw [decide_eq_true_eq, decide_eq_true_eq, within_take_iff hAscending hb])
  growing := by
    rw [counts_ofValues, List.pairwise_map]
    refine List.pairwise_le_range.imp fun {i j} hij => ?_
    rw [UInt64.le_iff_toNat_le, toNat_tallyUpTo hFew, toNat_tallyUpTo hFew]
    exact tallyUpTo_mono _ values hij
  last := by
    have hAll := (ofBoundaries boundaries).tallyUpTo_length values
    rw [counts_ofValues, count_ofValues, List.range_succ, List.map_append, ← hAll]
    exact List.getLast?_concat
  count := by
    rw [count_ofValues, UInt64.toNat_ofNat_of_lt' hFew]

end Exact

end Histogram

/-- A histogram counts what it is read to count, over any boundaries.  As long as fewer values were observed
than words can count, there is one entry for each boundary in order and one behind them; at each boundary
stands how many values do not exceed it or one before it, which for ascending boundaries is how many do not
exceed it; the counts never go down, and the last one is the count of all values.  A value that exceeds
every boundary, or is no number, is counted behind all of them.  Boundaries and values that compare alike
are counted alike. -/
theorem buckets_count_values (boundaries values : List Float) :
    (values.length < UInt64.size → Histogram.Reads boundaries values) ∧
      (∀ v : Float, v.isNaN = true ∨ ¬ Histogram.Within boundaries v →
        (Histogram.ofValues boundaries (values ++ [v])).buckets =
          (Histogram.ofValues boundaries values).buckets.modify boundaries.length (· + 1)) ∧
      ∀ boundaries' values' : List Float, boundaries.length = boundaries'.length →
        List.Forall₂ (fun v v' =>
          List.Forall₂ (fun b b' => v ≤ b ↔ v' ≤ b') boundaries boundaries') values values' →
        (Histogram.ofValues boundaries values).counts =
          (Histogram.ofValues boundaries' values').counts := by
  refine ⟨Histogram.reads_ofValues, fun v hBeyond => ?_, fun boundaries' values' hLength hAlike => ?_⟩
  · have hNowhere : ¬ Histogram.Within boundaries v := by
      rintro ⟨b, hb, hv⟩
      rcases hBeyond with hNaN | hExceeds
      · exact Decimal.not_le_of_isNaN hNaN b hv
      · exact hExceeds ⟨b, hb, hv⟩
    rw [Histogram.ofValues, List.foldl_append, ← Histogram.ofValues, List.foldl_cons, List.foldl_nil,
      Histogram.observe, Histogram.place, Histogram.ofValues, Histogram.boundaries_foldl_observe]
    exact congrArg (List.modify _ · _) (Histogram.place_of_not_within hNowhere)
  · have hPlaces := hAlike.imp fun _ _ hSame => Histogram.place_congr hSame
    rw [Histogram.counts_ofValues, Histogram.counts_ofValues, hLength]
    exact List.map_congr_left fun i _ =>
      congrArg UInt64.ofNat (Histogram.tallyUpTo_congr hPlaces i)

/-- Three values over boundaries out of order, one of them twice, and over ascending ones.  The third value
is no number. -/
theorem buckets_count_values_of_three :
    let nan := Float.ofBits 0x7FF8000000000000
    let values : List Float := [3, 7, nan]
    let mixed := Histogram.ofValues [5, 1, 10, 10] values
    let ascending := Histogram.ofValues [5, 10, 25] values
    values.length < UInt64.size ∧ mixed.counts = [1, 1, 2, 2, 3] ∧
      mixed.counts[1]?.map UInt64.toNat = some 1 ∧ mixed.count.toNat = 3 ∧
      ascending.counts[1]?.map UInt64.toNat = some (values.countP fun v => v ≤ 10) ∧
      (Histogram.ofValues [5, 10, 25] (values ++ [nan])).buckets = [1, 1, 0, 2] := by
  intro nan values mixed ascending
  have hFew : values.length < UInt64.size := by decide
  obtain ⟨hMixed, -, -⟩ := buckets_count_values [5, 1, 10, 10] values
  obtain ⟨hAscending, hBeyond, -⟩ := buckets_count_values [5, 10, 25] values
  refine ⟨hFew, by decide +kernel, ?_, (hMixed hFew).count, ?_, ?_⟩
  · rw [(hMixed hFew).counted 1 (by decide)]
    decide +kernel
  · exact (hAscending hFew).ascending (by decide +kernel) 1 10 rfl
  · rw [hBeyond nan (Or.inl (by decide +kernel))]
    decide +kernel

end ReplicaUpkeep
