import JoinPipeline.Options.Arguments
import JoinPipeline.Options.Document
import JoinPipeline.OrAbsent
import JoinPipeline.Grouping
import JoinPipeline.Log.Capture
import JoinPipeline.Partition
import JoinPipeline.RowCheck
import JoinPipeline.Value
import JoinPipeline.Run
import JoinPipeline.Transform
import JoinPipeline.Join
import JoinPipeline.Script.Session
import JoinPipeline.Proofs.Keys
import JoinPipeline.Proofs.Grouping
import JoinPipeline.Proofs.Buckets
import JoinPipeline.Proofs.Records
import JoinPipeline.Proofs.Tables
import JoinPipeline.Proofs.Fusion
import JoinPipeline.Proofs.Cuts
import JoinPipeline.Proofs.Lineage
import JoinPipeline.Proofs.Stages
import JoinPipeline.Proofs.Denotation
import JoinPipeline.Proofs.Builders
import JoinPipeline.Proofs.Construction
import JoinPipeline.Proofs.Collecting
import JoinPipeline.Proofs.FirstMet
import JoinPipeline.Proofs.Contract
import JoinPipeline.Proofs.Marks
import JoinPipeline.Proofs.Acceptance
import JoinPipeline.Proofs.Chaining
import JoinPipeline.Proofs.Nesting
import JoinPipeline.Proofs.Isolation
import JoinPipeline.Proofs.Building
import JoinPipeline.Proofs.Interleaving
import JoinPipeline.Proofs.Built
import JoinPipeline.Proofs.Emptied
import JoinPipeline.Proofs.Uniformity
import JoinPipeline.Proofs.Slots
import JoinPipeline.Proofs.Trails
import JoinPipeline.Proofs.Warnings
import JoinPipeline.Proofs.Silence
import JoinPipeline.Proofs.Histories
import JoinPipeline.Proofs.Shapes
import JoinPipeline.Proofs.Guards
import JoinPipeline.Proofs.Merging
import JoinPipeline.Proofs.Agreement
import JoinPipeline.Proofs.Decomposition
import JoinPipeline.Proofs.Absence
import JoinPipeline.Proofs.Mirroring
import JoinPipeline.Proofs.Hints
import JoinPipeline.Proofs.EvenCuts
import JoinPipeline.Proofs.RowCounts
import JoinPipeline.Proofs.Settings
import JoinPipeline.Proofs.KeyCounts
import JoinPipeline.Proofs.PartitionCounts
import JoinPipeline.Proofs.Decoding
import JoinPipeline.Proofs.Lines
import JoinPipeline.Proofs.Quoting
import JoinPipeline.Proofs.WarningLines
import JoinPipeline.Proofs.LoggedJoins
