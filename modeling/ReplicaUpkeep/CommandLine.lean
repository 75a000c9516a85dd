import ReplicaUpkeep.CommandLine.Options
import ReplicaUpkeep.Config.Sources
import ReplicaUpkeep.Json.Writer
import ReplicaUpkeep.Wire.Outcome

/-!
# The command lines

Two tools over the image of a cluster, as functions of their words, of the files they can read and of
the time.  The inspector reports on health or prints a plan; the manager runs one round.  A misuse
ends with code 2, a failure with code 1, both without output, and a manager whose configuration asks
for more than the machine can represent with code 101.
-/

namespace ReplicaUpkeep

/-- The health of a cluster as text for people. -/
def HealthReport.render (r : HealthReport) : String :=
  let count := fun (label : String) (n : Nat) =>
    "  " ++ label ++ ": " ++ String.ofList (Text.decimal n) ++ "\n"
  "Verification report:\n" ++ count "Containers" r.containers ++ count "Healthy" r.healthy ++
    count "Under-replicated" r.underReplicated ++ count "Over-replicated" r.overReplicated ++
    count "Finalizable" r.finalizable ++ count "Stuck" r.stuck.length ++
    String.join (r.stuck.map (fun s =>
      "    " ++ s.container.render ++ ": " ++ s.reason.message ++ "\n")) ++
    "  Nodes:\n" ++ String.join (r.nodes.entries.map (fun e => "  " ++ count e.1 e.2)) ++
    String.join (r.errors.map (fun e => "  Error: " ++ e ++ "\n"))

/-- The plan for a cluster as text for people: a directive a line, then the totals. -/
def ClusterPlan.render (p : ClusterPlan) : String :=
  let number := fun (n : Nat) => String.ofList (Text.decimal n)
  String.join (p.directives.map (fun d => d.render ++ "\n")) ++
    number p.directives.length ++ " directives over " ++ number p.containers ++ " containers (" ++
    number p.withheld ++ " withheld)\n"

namespace CommandLine

/-- The version of the program. -/
def version : String := "0.1.0"

/-- The version with the name of the program. -/
def buildInfo : String := version ++ " (replicon)"

/-- How a tool ends: its exit code and all that it printed. -/
structure Ending where
  code : Nat
  output : String
  deriving DecidableEq, Repr

namespace Ending

/-- The words make no sense. -/
def misuse : Ending := ⟨2, ""⟩

/-- Something could not be done. -/
def failure : Ending := ⟨1, ""⟩

/-- The configuration cannot be represented on this machine. -/
def breakdown : Ending := ⟨101, ""⟩

end Ending

/-- What the files of the machine hold, by path. -/
abbrev Files := String → Option ByteArray

/-- The store and registry of the image in a file. -/
def loadCluster (files : Files) (path : String) : Except Error (Store × Registry) := do
  let image ← ClusterImage.ofFile (files path)
  image.build

/-! ## The inspector -/

/-- Report on the health of the cluster in a file. -/
def verify (files : Files) (now : Timestamp) (path : String) (json : Bool) : Ending :=
  match loadCluster files path with
  | .error _ => .failure
  | .ok parts =>
    let report := HealthReport.of parts now
    { code := if report.errors = [] then 0 else 1
      output := if json then report.toJson.renderIndented ++ "\n" else report.render }

/-- Print the plan for the cluster in a file. -/
def plan (files : Files) (now : Timestamp) (path : String) : Ending :=
  match loadCluster files path with
  | .error _ => .failure
  | .ok parts => { code := 0, output := (ClusterPlan.of parts now).render }

/-- What the inspector can be asked for. -/
inductive Request where
  | version
  | verify (path : String) (json : Bool)
  | plan (path : String)
  deriving DecidableEq, Repr

namespace Request

/-- Does the word ask for the version?  Letters behind the short form do not matter. -/
def asksVersion (word : String) : Bool :=
  word = "--version" || ['-', 'V'].isPrefixOf word.toList

/-- What a list of words asks the inspector for, if it makes sense. -/
def ofWords? : List String → Option Request
  | "verify" :: words =>
    (read? [⟨"snapshot", true⟩, ⟨"json", false⟩] words).bind (fun given =>
      (value? given "snapshot").map (fun path => .verify path (value? given "json").isSome))
  | "plan" :: words =>
    (read? [⟨"snapshot", true⟩] words).bind (fun given =>
      (value? given "snapshot").map .plan)
  | word :: _ => if asksVersion word then some .version else none
  | [] => none

/-- The files that have to be read. -/
def paths : Request → List String
  | .version => []
  | .verify path _ => [path]
  | .plan path => [path]

/-- Do what is asked for. -/
def run (files : Files) (now : Timestamp) : Request → Ending
  | .version => { code := 0, output := "replicon " ++ CommandLine.version ++ "\n" }
  | .verify path json => CommandLine.verify files now path json
  | .plan path => CommandLine.plan files now path

end Request

/-- Run the inspector on a list of words. -/
def inspect (files : Files) (now : Timestamp) (words : List String) : Ending :=
  match Request.ofWords? words with
  | none => .misuse
  | some request => request.run files now

/-! ## The manager -/

/-- What the manager is asked for: a cluster, perhaps a configuration, and whether to stop after one
round. -/
structure Service where
  path : String
  config : Option String
  once : Bool
  deriving DecidableEq, Repr

namespace Service

/-- What a list of words asks the manager for, if it makes sense. -/
def ofWords? : List String → Option Service
  | "serve" :: words =>
    (read? [⟨"snapshot", true⟩, ⟨"config", true⟩, ⟨"once", false⟩] words).bind (fun given =>
      (value? given "snapshot").map (fun path =>
        { path, config := value? given "config", once := (value? given "once").isSome }))
  | _ => none

/-- The files that have to be read. -/
def paths (s : Service) : List String :=
  s.path :: s.config.toList

/-- The manager of the cluster, under the configuration of the file and the environment; none if the
machine cannot represent it. -/
def open? (s : Service) (files : Files) (env : List (String × String)) :
    Except Error (Option Manager) := do
  let file : Config.File :=
    match s.config with
    | none => .none
    | some path =>
      match (files path).bind String.fromUTF8? with
      | none => .unreadable
      | some text => .contents text
  match ← Config.load file env with
  | none => .ok none
  | some config =>
    let parts ← loadCluster files s.path
    .ok (Manager.create? config parts.1 parts.2)

/-- Run one round and print its report and the metrics. -/
def runOnce (s : Service) (files : Files) (env : List (String × String)) (now : Moment) : Ending :=
  match s.open? files env with
  | .error _ => .failure
  | .ok none => .breakdown
  | .ok (some manager) =>
    match manager.cycle? now with
    | none => .breakdown
    | some (report, manager) =>
      { code := 0
        output := report.toJson.renderIndented ++ "\n" ++ manager.metrics.render 0 }

end Service

end CommandLine

end ReplicaUpkeep
