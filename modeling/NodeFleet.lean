import NodeFleet.Calendar.Date
import NodeFleet.Calendar.Instant
import NodeFleet.Calendar.Rfc3339
import NodeFleet.Calendar.Timestamp
import NodeFleet.CommandLine.Command
import NodeFleet.CommandLine.Help
import NodeFleet.CommandLine.Options
import NodeFleet.Cron.Column
import NodeFleet.Cron.Field
import NodeFleet.Cron.Grammar
import NodeFleet.Cron.Schedule
import NodeFleet.Cron.Search
import NodeFleet.Definition.Documents
import NodeFleet.Definition.Schema
import NodeFleet.Digest.Sha256
import NodeFleet.Failure
import NodeFleet.Fleet.Converge
import NodeFleet.Fleet.Desired
import NodeFleet.Fleet.OrdinalDiff
import NodeFleet.Fleet.OrdinalSet
import NodeFleet.Json.Basic
import NodeFleet.Json.MergePatch
import NodeFleet.Json.Parser
import NodeFleet.Json.Pointer
import NodeFleet.Json.Printer
import NodeFleet.Json.Record
import NodeFleet.KeyMap
import NodeFleet.Main
import NodeFleet.Resource.CoreShapes
import NodeFleet.Resource.FullNode
import NodeFleet.Resource.Meta
import NodeFleet.Resource.Pod
import NodeFleet.Resource.Scheduler
import NodeFleet.Resource.Shape
import NodeFleet.Resource.VolumeClaim
import NodeFleet.Resource.VolumeSnapshot
import NodeFleet.Rollout
import NodeFleet.Settings
import NodeFleet.Snapshot.Candidate
import NodeFleet.Snapshot.Lifecycle
import NodeFleet.Snapshot.Retention
import NodeFleet.Snapshot.Sync
import NodeFleet.Snapshot.Timing
import NodeFleet.Store.Cluster
import NodeFleet.Store.Exchange
import NodeFleet.Store.Kind
import NodeFleet.Store.Pass
import NodeFleet.Store.Program
import NodeFleet.Store.StoreError
import NodeFleet.Text.Hex
import NodeFleet.Text.Printable
import NodeFleet.Text.Quoted
import NodeFleet.Text.Split
import NodeFleet.Text.Whole
import NodeFleet.Yaml.Printer
import NodeFleet.Proofs.Entries
import NodeFleet.Proofs.Store.Registry
import NodeFleet.Proofs.Store.Service
import NodeFleet.Proofs.Store.Exchanges
import NodeFleet.Proofs.Store.Passes
import NodeFleet.Proofs.Store.Chains
import NodeFleet.Proofs.Store.Plans
import NodeFleet.Proofs.Fleet.OrdinalDiff
import NodeFleet.Proofs.Fleet.OrdinalSet
import NodeFleet.Proofs.Rollout
import NodeFleet.Proofs.Fleet.Availability
import NodeFleet.Proofs.Fleet.RolloutFloor
import NodeFleet.Proofs.Resource.Selector
import NodeFleet.Proofs.Text.Decimal
import NodeFleet.Proofs.Snapshot.Repertoire
import NodeFleet.Proofs.Fleet.Converge
import NodeFleet.Proofs.Fleet.KeptClaims
import NodeFleet.Proofs.Fleet.DesiredPods
import NodeFleet.Proofs.Fleet.RolloutLimit
import NodeFleet.Proofs.Snapshot.Quiescence
import NodeFleet.Proofs.Snapshot.Phases
import NodeFleet.Proofs.Snapshot.Settling
import NodeFleet.Proofs.Fleet.HeldDown
import NodeFleet.Proofs.Snapshot.Interleaving
import NodeFleet.Proofs.Snapshot.Moves
import NodeFleet.Proofs.Snapshot.PhaseMoves
import NodeFleet.Proofs.Snapshot.Turns
import NodeFleet.Proofs.Snapshot.HandBack
import NodeFleet.Proofs.Snapshot.Outage
import NodeFleet.Proofs.Snapshot.Retries
import NodeFleet.Proofs.Calendar.Date
import NodeFleet.Proofs.Calendar.Rfc3339
import NodeFleet.Proofs.Cron.Search
import NodeFleet.Proofs.Cron.Schedule
import NodeFleet.Proofs.Snapshot.Occurrences
import NodeFleet.Proofs.Store.Outcomes
import NodeFleet.Proofs.Store.Conduct
import NodeFleet.Proofs.Snapshot.PassRules
import NodeFleet.Proofs.Snapshot.WellFormed
import NodeFleet.Proofs.Snapshot.Threshold
import NodeFleet.Proofs.Snapshot.Attribution
import NodeFleet.Proofs.Snapshot.Namesakes
import NodeFleet.Proofs.Json.Members
import NodeFleet.Proofs.Fleet.ClaimPatch
import NodeFleet.Proofs.Fleet.DesiredClaims
import NodeFleet.Proofs.Store.Unfailing
import NodeFleet.Proofs.Fleet.CompletePass
import NodeFleet.Proofs.Fleet.Ripening
import NodeFleet.Proofs.Fleet.Maturing
import NodeFleet.Proofs.Fleet.Convergence
import NodeFleet.Proofs.Fleet.Completeness
import NodeFleet.Proofs.Fleet.StatusWriters
import NodeFleet.Proofs.Fleet.SharedStatus
import NodeFleet.Proofs.Cron.Pieces
import NodeFleet.Proofs.Cron.Readers
import NodeFleet.Proofs.Cron.Lines
import NodeFleet.Proofs.Cron.Columns
import NodeFleet.Proofs.Cron.Least
import NodeFleet.Proofs.Cron.Firing
import NodeFleet.Proofs.Cron.YearColumn
import NodeFleet.Proofs.Json.Printing
import NodeFleet.Proofs.Resource.Shapes
import NodeFleet.Proofs.Fleet.PodDigest
import NodeFleet.Proofs.Fleet.MemberNames
import NodeFleet.Proofs.Fleet.Separation
import NodeFleet.Proofs.Snapshot.Footprint
import NodeFleet.Proofs.Json.ReadBack
import NodeFleet.Proofs.Resource.Persistence
import NodeFleet.Proofs.Snapshot.Release
import NodeFleet.Proofs.Snapshot.PhaseGraph
import NodeFleet.Proofs.Snapshot.Unfinished
import NodeFleet.Proofs.Ranking
import NodeFleet.Proofs.Text.Numeral
import NodeFleet.Proofs.Fleet.Partition
import NodeFleet.Proofs.Snapshot.Choice
import NodeFleet.Proofs.Text.Cutting
import NodeFleet.Proofs.Text.Padding
import NodeFleet.Proofs.Cron.Spelling
import NodeFleet.Proofs.Cron.Printed
import NodeFleet.Proofs.Cron.Weekdays
import NodeFleet.Proofs.Rollout.Exact
import NodeFleet.Proofs.Rollout.Percentage
import NodeFleet.Proofs.Store.Listings
import NodeFleet.Proofs.Snapshot.Expiry
import NodeFleet.Proofs.Snapshot.Pruning
import NodeFleet.Proofs.Fleet.Resumption
import NodeFleet.Proofs.Resource.History
import NodeFleet.Proofs.Json.PlacePatch
import NodeFleet.Proofs.Fleet.DesiredMembers
import NodeFleet.Proofs.Store.Lockstep
import NodeFleet.Proofs.Snapshot.StaleMessage
import NodeFleet.Proofs.Failure
import NodeFleet.Proofs.Resource.Matching
import NodeFleet.Proofs.Text.ByteOrder
import NodeFleet.Proofs.Calendar.Stamps
import NodeFleet.Proofs.Calendar.Spelling
import NodeFleet.Proofs.Snapshot.SnapshotNames
