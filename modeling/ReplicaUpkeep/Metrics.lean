import ReplicaUpkeep.Decimal.Shortest
import ReplicaUpkeep.Directive
import ReplicaUpkeep.Duration
import ReplicaUpkeep.Metrics.Histogram

/-!
# Metrics

Counters that only grow, gauges that are set, and a histogram of how long evaluations took.  All of
them are words of 64 bits that wrap around.
-/

namespace ReplicaUpkeep

/-- What is counted. -/
inductive Counter where
  | evaluations
  | failures
  | dispatched (kind : DirectiveKind)
  | withheld
  | dropped
  | suppressed
  deriving DecidableEq, Repr

/-- What is measured. -/
inductive Gauge where
  | stuck
  | underReplicated
  | overReplicated
  deriving DecidableEq, Repr

/-- The readings of every counter and gauge. -/
structure Metrics where
  evaluations : UInt64
  failures : UInt64
  closes : UInt64
  replicates : UInt64
  deletes : UInt64
  withheld : UInt64
  dropped : UInt64
  suppressed : UInt64
  stuck : UInt64
  underReplicated : UInt64
  overReplicated : UInt64
  latency : Histogram

namespace Metrics

/-- The boundaries of the latency of evaluations, in microseconds. -/
def latencyBoundaries : List Float :=
  [5, 10, 25, 50, 100, 250, 500, 1000, 5000, 25000]

/-- The readings before anything has happened. -/
def empty : Metrics where
  evaluations := 0
  failures := 0
  closes := 0
  replicates := 0
  deletes := 0
  withheld := 0
  dropped := 0
  suppressed := 0
  stuck := 0
  underReplicated := 0
  overReplicated := 0
  latency := .ofBoundaries latencyBoundaries

/-- The reading of a counter. -/
def counter (m : Metrics) : Counter → UInt64
  | .evaluations => m.evaluations
  | .failures => m.failures
  | .dispatched .close => m.closes
  | .dispatched .replicate => m.replicates
  | .dispatched .delete => m.deletes
  | .withheld => m.withheld
  | .dropped => m.dropped
  | .suppressed => m.suppressed

/-- Let a counter grow. -/
def add (m : Metrics) (n : UInt64) : Counter → Metrics
  | .evaluations => { m with evaluations := m.evaluations + n }
  | .failures => { m with failures := m.failures + n }
  | .dispatched .close => { m with closes := m.closes + n }
  | .dispatched .replicate => { m with replicates := m.replicates + n }
  | .dispatched .delete => { m with deletes := m.deletes + n }
  | .withheld => { m with withheld := m.withheld + n }
  | .dropped => { m with dropped := m.dropped + n }
  | .suppressed => { m with suppressed := m.suppressed + n }

/-- The reading of a gauge. -/
def gauge (m : Metrics) : Gauge → UInt64
  | .stuck => m.stuck
  | .underReplicated => m.underReplicated
  | .overReplicated => m.overReplicated

/-- Set a gauge. -/
def set (m : Metrics) (n : UInt64) : Gauge → Metrics
  | .stuck => { m with stuck := n }
  | .underReplicated => { m with underReplicated := n }
  | .overReplicated => { m with overReplicated := n }

/-- A duration in microseconds, as a double: seconds first, then scaled. -/
def microseconds (d : Duration) : Float :=
  (d.seconds.toFloat + d.nanos.toUInt64.toFloat / 1000000000) * 1000000

/-- Count an evaluation that took a time, and a failure if it failed. -/
def recordEvaluation (m : Metrics) (took : Duration) (success : Bool) : Metrics :=
  let m := { m.add 1 .evaluations with latency := m.latency.observe (microseconds took) }
  if success then m else m.add 1 .failures

/-- Count a directive that was sent. -/
def recordDispatched (m : Metrics) (kind : DirectiveKind) : Metrics :=
  m.add 1 (.dispatched kind)

/-! ## Text form -/

/-- The text of a reading. -/
def word (n : UInt64) : String :=
  String.ofList (Text.decimal n.toNat)

/-- The lines that introduce a metric. -/
def heading (name help kind : String) : String :=
  "# HELP " ++ name ++ " " ++ help ++ "\n# TYPE " ++ name ++ " " ++ kind ++ "\n"

/-- A metric with one reading. -/
def single (kind name help : String) (n : UInt64) : String :=
  heading name help kind ++ name ++ " " ++ word n ++ "\n"

/-- The text of a boundary. -/
def boundary (b : Float) : String :=
  match Decimal.Double.ofFloat b with
  | .infinite _ => "+Inf"
  | d => String.ofList d.render

/-- The lines of the histogram of latencies. -/
def latencyLines (h : Histogram) : String :=
  let name := "replicon_evaluation_duration_us"
  heading name "Evaluation duration in microseconds" "histogram" ++
    String.join (h.cumulative.map (fun b =>
      name ++ "_bucket\x7ble=\"" ++ boundary b.1 ++ "\"\x7d " ++ word b.2 ++ "\n")) ++
    name ++ "_sum " ++ word h.sum ++ "\n" ++ name ++ "_count " ++ word h.count ++ "\n"

/-- All readings in the text form that collectors of metrics read, a manager having run for a number
of seconds. -/
def render (m : Metrics) (uptime : UInt64) : String :=
  let counted := single "counter"
  let measured := single "gauge"
  let directives := "replicon_directives_total"
  counted "replicon_evaluations_total" "Container evaluations run" m.evaluations ++
    counted "replicon_evaluation_failures_total" "Evaluations aborted with an error" m.failures ++
    counted "replicon_directives_withheld_total" "Directives withheld by node checks" m.withheld ++
    counted "replicon_directives_dropped_total" "Directives dropped on a full channel" m.dropped ++
    counted "replicon_inflight_suppressed_total" "Repairs skipped because one is in flight"
      m.suppressed ++
    heading directives "Directives dispatched by kind" "counter" ++
    String.join (DirectiveKind.all.map (fun kind =>
      directives ++ "\x7bkind=\"" ++ kind.name ++ "\"\x7d " ++ word (m.counter (.dispatched kind)) ++
        "\n")) ++
    measured "replicon_stuck_containers" "Quasi-closed containers that cannot be finalized yet"
      m.stuck ++
    measured "replicon_under_replicated_containers" "Containers below their replica factor"
      m.underReplicated ++
    measured "replicon_over_replicated_containers" "Containers above their replica factor" m.overReplicated ++
    measured "replicon_uptime_seconds" "Manager uptime in seconds" uptime ++
    latencyLines m.latency

end Metrics

end ReplicaUpkeep
