import ReplicaUpkeep.CommandLine
import ReplicaUpkeep.Main
import ReplicaUpkeep.Proofs.Plan.Survivors
import ReplicaUpkeep.Proofs.Plan.Usability
import ReplicaUpkeep.Proofs.Rounds.Convergence
import ReplicaUpkeep.Proofs.Store.Advancement
import ReplicaUpkeep.Wire.Config
import ReplicaUpkeep.Proofs.Plan.Need
import ReplicaUpkeep.Proofs.Queue.Inflight
import ReplicaUpkeep.Proofs.Queue.Line
import ReplicaUpkeep.Proofs.Queue.Settling
import ReplicaUpkeep.Proofs.Manager.Dispatching
import ReplicaUpkeep.Proofs.Store.Keyed
import ReplicaUpkeep.Proofs.Manager.Round
import ReplicaUpkeep.Proofs.Manager.History
import ReplicaUpkeep.Proofs.Manager.Delivery
import ReplicaUpkeep.Proofs.Manager.Planned
import ReplicaUpkeep.Proofs.Queue.Turns
import ReplicaUpkeep.Proofs.Manager.Turns
import ReplicaUpkeep.Proofs.Manager.FirstRound
import ReplicaUpkeep.Proofs.Queue.Roster
import ReplicaUpkeep.Proofs.Store.Monotone
import ReplicaUpkeep.Proofs.Queue.Membership
import ReplicaUpkeep.Proofs.Manager.Membership
import ReplicaUpkeep.Proofs.Manager.Accounting
import ReplicaUpkeep.Proofs.Store.Shown
import ReplicaUpkeep.Proofs.Store.Deletion
import ReplicaUpkeep.Proofs.Image.Building
import ReplicaUpkeep.Proofs.Image.Consistency
import ReplicaUpkeep.Proofs.Image.Rearrangement
import ReplicaUpkeep.Proofs.Plan.Conservation
import ReplicaUpkeep.Proofs.Verdict.Reason
import ReplicaUpkeep.Proofs.Audit.Counting
import ReplicaUpkeep.Proofs.Audit.HealthReport
import ReplicaUpkeep.Proofs.Image.Replay
import ReplicaUpkeep.Proofs.Registry.Counting
import ReplicaUpkeep.Proofs.Registry.Covering
import ReplicaUpkeep.Proofs.Manager.NodeChange
import ReplicaUpkeep.Proofs.Plan.Excess
import ReplicaUpkeep.Proofs.Plan.Lineages
import ReplicaUpkeep.Proofs.Text.Digits
import ReplicaUpkeep.Proofs.Json.Tokens
import ReplicaUpkeep.Proofs.Json.Values
import ReplicaUpkeep.Proofs.Timestamp.Text
import ReplicaUpkeep.Proofs.Json.Records
import ReplicaUpkeep.Proofs.Wire.Roundtrip
import ReplicaUpkeep.Proofs.Manager.Limits
import ReplicaUpkeep.Proofs.Plan.Contents
import ReplicaUpkeep.Proofs.Plan.Sources
import ReplicaUpkeep.Proofs.Queue.Entry
import ReplicaUpkeep.Proofs.Manager.Neediest
import ReplicaUpkeep.Proofs.Manager.Closed
import ReplicaUpkeep.Proofs.Queue.Tally
import ReplicaUpkeep.Proofs.Manager.Eviction
import ReplicaUpkeep.Proofs.Text.Trimming
import ReplicaUpkeep.Proofs.Duration.Grammar
import ReplicaUpkeep.Proofs.Duration.Roundtrip
import ReplicaUpkeep.Proofs.Decimal.Comparing
import ReplicaUpkeep.Proofs.Manager.Withholding
import ReplicaUpkeep.Proofs.Metrics.Buckets
import ReplicaUpkeep.Proofs.Snapshot.Algebra
