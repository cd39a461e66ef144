import StackedCache.Main
import StackedCache.Model.Basic
import StackedCache.Program.Run
import StackedCache.Proofs.Model.Faults
import StackedCache.Proofs.Model.Ledger
import StackedCache.Proofs.Relocation.Bijection
import StackedCache.Proofs.Relocation.Journal
import StackedCache.Relocation.Run
import StackedCache.Replay.Basic
import StackedCache.Residency.CacheSet
import StackedCache.Service.Request
import StackedCache.Settings.Document
import StackedCache.Stack.Basic
import StackedCache.Statistics.Document
import StackedCache.Statistics.Text
import StackedCache.Proofs.Relocation.Aging
import StackedCache.Proofs.Relocation.Outcome
import StackedCache.Proofs.Relocation.Safety
import StackedCache.Proofs.Relocation.HotRows
import StackedCache.Proofs.Relocation.Migration
import StackedCache.Proofs.Stack.Accesses
import StackedCache.Proofs.Relocation.Accesses
import StackedCache.Proofs.Service.Upholding
import StackedCache.Proofs.Model.Accesses
import StackedCache.Proofs.Stack.Forgetting
import StackedCache.Proofs.Residency.Forgetting
import StackedCache.Proofs.Relocation.Forgetting
import StackedCache.Proofs.Service.Forgetting
import StackedCache.Proofs.Model.Forgetting
import StackedCache.Proofs.Relocation.FrozenVaults
import StackedCache.Proofs.Stack.Elsewhere
import StackedCache.Proofs.Model.Idle
import StackedCache.Proofs.Model.Reference
import StackedCache.Proofs.Settings.Counts
import StackedCache.Proofs.Relocation.Pairs
import StackedCache.Proofs.Relocation.Scope
import StackedCache.Proofs.Relocation.Cooldown
import StackedCache.Proofs.Relocation.Reports
import StackedCache.Proofs.Service.Effects
import StackedCache.Proofs.Model.Verdicts
import StackedCache.Proofs.Service.Settlement
import StackedCache.Proofs.Service.Unseen
import StackedCache.Proofs.Relocation.Calm
import StackedCache.Proofs.Relocation.Hysteresis
import StackedCache.Proofs.Relocation.RowReturn
import StackedCache.Proofs.Relocation.Choice
import StackedCache.Proofs.Relocation.Unmeasured
import StackedCache.Proofs.Service.Calm
import StackedCache.Proofs.Model.Calm
import StackedCache.Proofs.Stack.Refusal
import StackedCache.Proofs.Model.Related
import StackedCache.Proofs.Service.Order
import StackedCache.Proofs.Model.Order
import StackedCache.Proofs.Service.Segments
import StackedCache.Proofs.Model.Segments
import StackedCache.Proofs.Replay.Schedule
import StackedCache.Proofs.Residency.Recency
import StackedCache.Proofs.Residency.Ages
import StackedCache.Proofs.Model.Training
import StackedCache.Proofs.Residency.Tags
import StackedCache.Proofs.Residency.Bitmaps
import StackedCache.Proofs.Stack.Deadlines
import StackedCache.Proofs.Relocation.FrequentRows
import StackedCache.Proofs.Service.Windows
import StackedCache.Proofs.Stack.Latencies
import StackedCache.Proofs.Stack.Accounting
import StackedCache.Proofs.Placement
import StackedCache.Proofs.Service.Frames
import StackedCache.Proofs.Trace.Lines
import StackedCache.Proofs.Trace.Taking
import StackedCache.Proofs.Trace.Requests
import StackedCache.Proofs.Settings.RoundTrip
