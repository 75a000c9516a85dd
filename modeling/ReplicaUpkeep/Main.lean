import ReplicaUpkeep.CommandLine
import ReplicaUpkeep.Timestamp.Unix
import Std.Time.DateTime.Timestamp

/-!
# The program

Reads words, files, environment and clocks, and hands them to the command lines.  The first word
`serve` calls the manager and any other the inspector.  Without `--once` the manager goes on round
after round and prints on the error stream what it asks for.
-/

namespace ReplicaUpkeep.Program

/-- The contents of those of the files that can be read. -/
def readFiles (paths : List String) : IO CommandLine.Files := do
  let contents ← paths.mapM (fun (path : String) => do
    try
      let bytes ← IO.FS.readBinFile path
      return (path, some bytes)
    catch _ => return (path, none))
  return fun path => (contents.find? (fun c => c.1 = path)).bind Prod.snd

/-- The variables of the environment that can matter. -/
def environment : IO (List (String × String)) := do
  let names := ["INTERVAL", "MAX_REPAIRS_PER_CYCLE", "INFLIGHT_TIMEOUT",
    "DIRECTIVE_CHANNEL_CAPACITY", "LOG_LEVEL"].map ("REPLICON__" ++ ·)
  let found ← names.mapM (fun name => do
    return (← IO.getEnv name).map (name, ·))
  return found.filterMap id

/-- The time now. -/
def wallClock : IO Timestamp := do
  let t ← Std.Time.Timestamp.now
  let nanos := t.toNanosecondsSinceUnixEpoch.val
  match Timestamp.ofUnix? (nanos / 1000000000) (nanos % 1000000000).toNat with
  | some now => return now
  | none => throw (IO.userError "the clock is out of range")

/-- Now on both clocks. -/
def moment : IO Moment := do
  return { wall := ← wallClock, steady := ← IO.monoNanosNow }

/-- Print an ending and give its code. -/
def finish (e : CommandLine.Ending) : IO UInt32 := do
  IO.print e.output
  return UInt32.ofNat e.code

/-- Round after round, as long as the process lives. -/
partial def rounds (m : Manager) : IO UInt32 := do
  match m.cycle? (← moment) with
  | none => finish .breakdown
  | some (_, m) =>
    let (sent, m) := m.drain m.outbox.waiting.length
    for d in sent do
      IO.eprintln d.render
    IO.sleep (UInt32.ofNat m.config.interval.millis)
    rounds m

/-- Run the manager. -/
def serve (words : List String) : IO UInt32 := do
  match CommandLine.Service.ofWords? words with
  | none => finish .misuse
  | some service =>
    let files ← readFiles service.paths
    let env ← environment
    if service.once then finish (service.runOnce files env (← moment))
    else
      match service.open? files env with
      | .error _ => finish .failure
      | .ok none => finish .breakdown
      | .ok (some m) => rounds m

/-- Run the inspector. -/
def inspect (words : List String) : IO UInt32 := do
  match CommandLine.Request.ofWords? words with
  | none => finish .misuse
  | some request => finish (request.run (← readFiles request.paths) (← wallClock))

end ReplicaUpkeep.Program

/-- The program. -/
def main (words : List String) : IO UInt32 :=
  match words with
  | "serve" :: _ => ReplicaUpkeep.Program.serve words
  | _ => ReplicaUpkeep.Program.inspect words
