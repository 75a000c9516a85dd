import ReplicaUpkeep.Image
import ReplicaUpkeep.Json.Reader
import ReplicaUpkeep.Json.Shape
import ReplicaUpkeep.Timestamp.Text

/-!
# The JSON forms of a cluster

How containers, replicas, reports and nodes stand in an image, and the image itself.  Every form is
written with all its fields in one order, a missing value as `null`; only the expiry of a node's
status is left out when there is none.  Reading takes the fields in any order and allows those with a
default to be missing.
-/

namespace ReplicaUpkeep

/-! ## Containers -/

/-- The number of a container. -/
def ContainerId.toJson (id : ContainerId) : Json :=
  .word id.number

/-- A container's number. -/
def ContainerId.ofJson? (v : Json) : Option ContainerId :=
  v.toWord?.map ContainerId.mk

/-- The name of a stage of a container. -/
def ContainerState.ofJson? (v : Json) : Option ContainerState :=
  v.toName?.bind ofName?

/-- A container as an object. -/
def Container.toJson (c : Container) : Json :=
  .record [
    ("id", c.id.toJson),
    ("state", .str c.state.name),
    ("replication_factor", .word c.factor),
    ("sequence", .word c.sequence)]

/-- A container; its sequence is zero where none is given. -/
def Container.ofJson? (v : Json) : Option Container :=
  match v.fields? ["id", "state", "replication_factor", "sequence"] with
  | some [id, state, factor, sequence] => do
    let id ← Json.required ContainerId.ofJson? id
    let state ← Json.required ContainerState.ofJson? state
    let factor ← Json.required Json.toWord? factor
    let sequence ← Json.withDefault 0 Json.toWord? sequence
    some { id, state, factor, sequence }
  | _ => none

/-! ## Replicas and reports -/

/-- The name of a stage of a replica. -/
def ReplicaState.ofJson? (v : Json) : Option ReplicaState :=
  v.toName?.bind ofName?

/-- A replica as an object. -/
def Replica.toJson (r : Replica) : Json :=
  .record [
    ("node", .str r.node),
    ("state", .str r.state.name),
    ("sequence", .word r.sequence),
    ("origin", .optionalText r.origin),
    ("is_empty", .boolean r.isEmpty)]

/-- A replica; only its origin may be missing. -/
def Replica.ofJson? (v : Json) : Option Replica :=
  match v.fields? ["node", "state", "sequence", "origin", "is_empty"] with
  | some [node, state, sequence, origin, isEmpty] => do
    let node ← Json.required Json.toText? node
    let state ← Json.required ReplicaState.ofJson? state
    let sequence ← Json.required Json.toWord? sequence
    let origin ← Json.optional Json.toText? origin
    let isEmpty ← Json.required Json.toBoolean? isEmpty
    some { node, state, sequence, origin, isEmpty }
  | _ => none

/-- A word that may be missing. -/
def Json.optionalWord : Option UInt64 → Json
  | none => .null
  | some n => .word n

/-- A report as an object. -/
def Report.toJson (r : Report) : Json :=
  .record [
    ("container", r.container.toJson),
    ("node", .str r.node),
    ("state", .str r.state.name),
    ("sequence", .optionalWord r.sequence),
    ("origin", .optionalText r.origin),
    ("is_empty", .boolean r.isEmpty)]

/-- A report; sequence and origin may be missing, and so may the mark of an empty replica. -/
def Report.ofJson? (v : Json) : Option Report :=
  match v.fields? ["container", "node", "state", "sequence", "origin", "is_empty"] with
  | some [container, node, state, sequence, origin, isEmpty] => do
    let container ← Json.required ContainerId.ofJson? container
    let node ← Json.required Json.toText? node
    let state ← Json.required ReplicaState.ofJson? state
    let sequence ← Json.optional Json.toWord? sequence
    let origin ← Json.optional Json.toText? origin
    let isEmpty ← Json.withDefault false Json.toBoolean? isEmpty
    some { container, node, state, sequence, origin, isEmpty }
  | _ => none

/-! ## Nodes -/

/-- The text of a point in time. -/
def Timestamp.toJson (t : Timestamp) : Json :=
  .str t.render

/-- A point in time. -/
def Timestamp.ofJson? (v : Json) : Option Timestamp :=
  v.toText?.bind parse?

/-- The name of an operational state. -/
def OperationalState.ofJson? (v : Json) : Option OperationalState :=
  v.toName?.bind ofName?

/-- The name of a health. -/
def NodeHealth.ofJson? (v : Json) : Option NodeHealth :=
  v.toName?.bind ofName?

/-- A status as an object, without an expiry if there is none. -/
def NodeStatus.toJson (s : NodeStatus) : Json :=
  .record ([
    ("operational", .str s.operational.name),
    ("health", .str s.health.name)] ++
    s.expiry.toList.map (fun t => ("op_state_expiry", t.toJson)))

/-- A status; the expiry may be missing. -/
def NodeStatus.ofJson? (v : Json) : Option NodeStatus :=
  match v.fields? ["operational", "health", "op_state_expiry"] with
  | some [operational, health, expiry] => do
    let operational ← Json.required OperationalState.ofJson? operational
    let health ← Json.required NodeHealth.ofJson? health
    let expiry ← Json.optional Timestamp.ofJson? expiry
    some { operational, health, expiry }
  | _ => none

/-- A node as an object. -/
def NodeInfo.toJson (n : NodeInfo) : Json :=
  .record [
    ("id", .str n.id),
    ("address", .str n.address),
    ("status", n.status.toJson)]

/-- A node; its address is empty where none is given. -/
def NodeInfo.ofJson? (v : Json) : Option NodeInfo :=
  match v.fields? ["id", "address", "status"] with
  | some [id, address, status] => do
    let id ← Json.required Json.toText? id
    let address ← Json.withDefault "" Json.toText? address
    let status ← Json.required NodeStatus.ofJson? status
    some { id, address, status }
  | _ => none

/-! ## Images -/

/-- An image as an object. -/
def ClusterImage.toJson (i : ClusterImage) : Json :=
  .record [
    ("nodes", .array (i.nodes.map NodeInfo.toJson)),
    ("containers", .array (i.containers.map Container.toJson)),
    ("replicas", .array (i.reports.map Report.toJson))]

/-- An image; each of its lists is empty where it is not given. -/
def ClusterImage.ofJson? (v : Json) : Option ClusterImage :=
  match v.fields? ["nodes", "containers", "replicas"] with
  | some [nodes, containers, reports] => do
    let nodes ← Json.withDefault [] (Json.toList? NodeInfo.ofJson?) nodes
    let containers ← Json.withDefault [] (Json.toList? Container.ofJson?) containers
    let reports ← Json.withDefault [] (Json.toList? Report.ofJson?) reports
    some { nodes, containers, reports }
  | _ => none

/-- The image of a text. -/
def ClusterImage.ofText (s : String) : Except Error ClusterImage :=
  match (Json.parse? s).bind ofJson? with
  | some i => .ok i
  | none => .error (.json "not an image")

/-- The image of the bytes of a file; `none` stands for a file that is not there. -/
def ClusterImage.ofFile (bytes : Option ByteArray) : Except Error ClusterImage :=
  match bytes.map String.fromUTF8? with
  | some (some s) => ofText s
  | some none => .error (.io "not a text")
  | none => .error (.io "no such file")

end ReplicaUpkeep
