import ReplicaUpkeep.Audit
import ReplicaUpkeep.Manager.Cycle
import ReplicaUpkeep.Wire.Cluster

/-!
# The JSON forms of outcomes

How directives, plans, verdicts, evaluations and reports are written, and those of them read that are
also given as inputs.  A directive leaves out a target or a source that it does not have, and an
evaluation a verdict; every other missing value is `null`.
-/

namespace ReplicaUpkeep

/-- An object without the members that have no value. -/
def Json.recordOf (members : List (String × Option Json)) : Json :=
  .record (members.filterMap (fun m => m.2.map (fun v => (m.1, v))))

/-! ## Directives -/

/-- The name of a kind of directive. -/
def DirectiveKind.ofJson? (v : Json) : Option DirectiveKind :=
  v.toName?.bind ofName?

/-- A directive as an object, without the nodes that it does not name. -/
def Directive.toJson (d : Directive) : Json :=
  .recordOf [
    ("kind", some (.str d.kind.name)),
    ("container", some d.container.toJson),
    ("target", d.target.map .str),
    ("source", d.source.map .str)]

/-- A directive; both nodes may be missing. -/
def Directive.ofJson? (v : Json) : Option Directive :=
  match v.fields? ["kind", "container", "target", "source"] with
  | some [kind, container, target, source] => do
    let kind ← Json.required DirectiveKind.ofJson? kind
    let container ← Json.required ContainerId.ofJson? container
    let target ← Json.optional Json.toText? target
    let source ← Json.optional Json.toText? source
    some { kind, container, target, source }
  | _ => none

/-- The directive of a text. -/
def Directive.ofText (s : String) : Except Error Directive :=
  match (Json.parse? s).bind ofJson? with
  | some d => .ok d
  | none => .error (.json "not a directive")

/-- A withheld directive as an object. -/
def Withheld.toJson (w : Withheld) : Json :=
  .record [
    ("kind", .str w.kind.name),
    ("node", .optionalText w.node),
    ("reason", .str w.reason.name)]

/-- A plan as an object. -/
def Plan.toJson (p : Plan) : Json :=
  .record [
    ("directives", .array (p.directives.map Directive.toJson)),
    ("withheld", .array (p.withheld.map Withheld.toJson))]

/-! ## Capacity and verdict -/

/-- A capacity as an object. -/
def Capacity.toJson (c : Capacity) : Json :=
  .record [
    ("container", c.container.toJson),
    ("replication_factor", .nat c.factor),
    ("total", .nat c.total),
    ("good", .nat c.good),
    ("unhealthy", .nat c.unhealthy)]

/-- A capacity, which is always an object; nothing may be missing. -/
def Capacity.ofJson? (v : Json) : Option Capacity :=
  match v.objectFields? ["container", "replication_factor", "total", "good", "unhealthy"] with
  | some [container, factor, total, good, unhealthy] => do
    let count := Json.required (Json.toNatBelow? Text.wordLimit)
    let container ← Json.required ContainerId.ofJson? container
    let factor ← count factor
    let total ← count total
    let good ← count good
    let unhealthy ← count unhealthy
    some { container, factor, total, good, unhealthy }
  | _ => none

/-- Origins as an object. -/
def Origins.toJson : Origins → Json
  | .clean => .record [("kind", .str "clean")]
  | .ambiguous duplicates =>
    .record [
      ("kind", .str "ambiguous"),
      ("duplicates", .record (duplicates.entries.map (fun e => (e.1, .texts e.2))))]

/-- A verdict as an object. -/
def Verdict.toJson (v : Verdict) : Json :=
  .record [
    ("max_sequence", .word v.maxSequence),
    ("eligible", .texts v.eligible),
    ("eligible_closed", .texts v.eligibleClosed),
    ("writable", .texts v.writable),
    ("blocking_open", .boolean v.blockingOpen),
    ("full_picture", .boolean v.fullPicture),
    ("origins", v.origins.toJson),
    ("stuck", .boolean v.stuck)]

/-- A verdict, which is always an object; its origins are not read, and taken to be clean. -/
def Verdict.ofJson? (v : Json) : Option Verdict :=
  match v.objectFields? ["max_sequence", "eligible", "eligible_closed", "writable", "blocking_open",
    "full_picture", "stuck"] with
  | some [maxSequence, eligible, eligibleClosed, writable, blockingOpen, fullPicture, stuck] => do
    let nodes := Json.required (Json.toList? Json.toText?)
    let maxSequence ← Json.required Json.toWord? maxSequence
    let eligible ← nodes eligible
    let eligibleClosed ← nodes eligibleClosed
    let writable ← nodes writable
    let blockingOpen ← Json.required Json.toBoolean? blockingOpen
    let fullPicture ← Json.required Json.toBoolean? fullPicture
    let stuck ← Json.required Json.toBoolean? stuck
    some {
      maxSequence, eligible, eligibleClosed, writable, blockingOpen, fullPicture
      origins := .clean
      stuck }
  | _ => none

/-! ## Evaluations and reports -/

/-- An evaluation as an object, without a verdict if there is none. -/
def Evaluation.toJson (e : Evaluation) : Json :=
  .recordOf [
    ("container", some e.container.toJson),
    ("health", some e.capacity.toJson),
    ("verdict", e.verdict.map Verdict.toJson),
    ("directives", some (.array (e.directives.map Directive.toJson))),
    ("withheld", some (.array (e.withheld.map Withheld.toJson)))]

/-- The report of a round as an object. -/
def CycleReport.toJson (r : CycleReport) : Json :=
  .record [
    ("evaluated", .nat r.evaluated),
    ("failed", .nat r.failed),
    ("stuck", .nat r.stuck),
    ("finalizable", .nat r.finalizable),
    ("under_replicated", .nat r.underReplicated),
    ("over_replicated", .nat r.overReplicated),
    ("closes", .nat r.closes),
    ("replicates", .nat r.replicates),
    ("deletes", .nat r.deletes),
    ("withheld", .nat r.withheld),
    ("dropped", .nat r.dropped),
    ("inflight_suppressed", .nat r.suppressed)]

/-- A stuck container as an object. -/
def StuckContainer.toJson (s : StuckContainer) : Json :=
  .record [("container", s.container.toJson), ("reason", .str s.reason.message)]

/-- The health of a cluster as an object. -/
def HealthReport.toJson (r : HealthReport) : Json :=
  .record [
    ("containers", .nat r.containers),
    ("healthy", .nat r.healthy),
    ("under_replicated", .nat r.underReplicated),
    ("over_replicated", .nat r.overReplicated),
    ("stuck", .array (r.stuck.map StuckContainer.toJson)),
    ("finalizable", .nat r.finalizable),
    ("nodes", .record (r.nodes.entries.map (fun e => (e.1, .nat e.2)))),
    ("errors", .texts r.errors)]

/-- The plan for a cluster as an object. -/
def ClusterPlan.toJson (p : ClusterPlan) : Json :=
  .record [
    ("containers", .nat p.containers),
    ("directives", .array (p.directives.map Directive.toJson)),
    ("withheld", .nat p.withheld),
    ("errors", .texts p.errors)]

end ReplicaUpkeep
