/-!
# Histograms

Counts of observed values by boundary.  A value is counted at the first boundary that it does not
exceed, and at the extra place behind all boundaries if there is none.  Boundaries may come in any
order, and only comparisons are made with them.  Counts and the sum are words that wrap around.
-/

namespace ReplicaUpkeep

/-- Counts of values at each boundary and behind the last one, with the sum of all values. -/
structure Histogram where
  boundaries : List Float
  /-- One count a boundary, and one more. -/
  buckets : List UInt64
  sum : UInt64
  count : UInt64

namespace Histogram

/-- The histogram without values over the given boundaries. -/
def ofBoundaries (boundaries : List Float) : Histogram where
  boundaries := boundaries
  buckets := List.replicate (boundaries.length + 1) 0
  sum := 0
  count := 0

/-- The place at which a value is counted. -/
def place (h : Histogram) (value : Float) : Nat :=
  h.boundaries.findIdx (fun boundary => value ≤ boundary)

/-- Count a value, its whole part added to the sum. -/
def observe (h : Histogram) (value : Float) : Histogram :=
  { h with
    buckets := h.buckets.modify (h.place value) (· + 1)
    sum := h.sum + value.toUInt64
    count := h.count + 1 }

/-- The running totals of a list. -/
def totals : UInt64 → List UInt64 → List UInt64
  | _, [] => []
  | before, n :: rest => (before + n) :: totals (before + n) rest

/-- For each boundary, infinity last, how many values were counted there or before. -/
def cumulative (h : Histogram) : List (Float × UInt64) :=
  (h.boundaries ++ [Float.ofBits 0x7FF0000000000000]).zip (totals 0 h.buckets)

end Histogram

end ReplicaUpkeep
