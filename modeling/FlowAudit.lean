import FlowAudit.Command.Run
import FlowAudit.Fixture.Check
import FlowAudit.Main
import FlowAudit.Proofs.Traversal
import FlowAudit.Proofs.Replication.Expansion
import FlowAudit.Proofs.Totals
import FlowAudit.Proofs.Replication.LoopTimes
import FlowAudit.Proofs.Replication.Outcome
import FlowAudit.Proofs.Replication.WrittenPlan
import FlowAudit.Proofs.Replication.Addresses
import FlowAudit.Proofs.Flow.Order
import FlowAudit.Proofs.Digits
import FlowAudit.Proofs.Csv
import FlowAudit.Proofs.Dataset.RoundTrip
import FlowAudit.Proofs.Text.Blank
import FlowAudit.Proofs.Address.Text
import FlowAudit.Proofs.Grouping
import FlowAudit.Proofs.Merge.Aggregate
import FlowAudit.Proofs.Merge.ByKey
import FlowAudit.Proofs.Merge.Conversations
import FlowAudit.Proofs.Replication.Blocks
import FlowAudit.Proofs.Replication.Conservation
import FlowAudit.Proofs.Replication.Separation
import FlowAudit.Proofs.Comparison.Complement
import FlowAudit.Proofs.Comparison.Merging
import FlowAudit.Proofs.Comparison.Outcomes
import FlowAudit.Proofs.Comparison.RowOrder
import FlowAudit.Proofs.Replication.InputOrder
import FlowAudit.Proofs.Dataset.Derived
import FlowAudit.Proofs.Dataset.Loaded
import FlowAudit.Proofs.Dataset.Columns
import FlowAudit.Proofs.Merge.Directions
import FlowAudit.Proofs.Dataset.Times
import FlowAudit.Proofs.Dataset.Noise
import FlowAudit.Proofs.Float.Magnitude
import FlowAudit.Proofs.Comparison.Independence
import FlowAudit.Proofs.Comparison.Refusal
import FlowAudit.Proofs.Comparison.Precise
import FlowAudit.Proofs.Replication.IgnoredLoops
import FlowAudit.Proofs.Comparison.Reversal
import FlowAudit.Proofs.Command.Arguments
import FlowAudit.Proofs.Command.Outputs
import FlowAudit.Proofs.Path
import FlowAudit.Proofs.Fixture.Produce
import FlowAudit.Proofs.Command.Pipelines
import FlowAudit.Proofs.Distinct
import FlowAudit.Proofs.FileTree.Shape
import FlowAudit.Proofs.Rule.Document
import FlowAudit.Proofs.Fixture.Load
import FlowAudit.Proofs.Fixture.Check
import FlowAudit.Proofs.Fixture.Regenerate
import FlowAudit.Proofs.Text.Line
import FlowAudit.Proofs.Report.Document
import FlowAudit.Proofs.Report.Verdict
import FlowAudit.Proofs.Merge.Summary
import FlowAudit.Proofs.Replication.Division
import FlowAudit.Proofs.Replication.Timeouts
import FlowAudit.Proofs.Replication.WithoutTimeout
import FlowAudit.Proofs.Merge.Alignment
import FlowAudit.Proofs.Calendar
import FlowAudit.Proofs.Rule.TimeBound
import FlowAudit.Proofs.Comparison.Windows
import FlowAudit.Proofs.Fixture.Difference
import FlowAudit.Proofs.Replication.Modifiers
