import SimplicioFast.Cache.Content
import SimplicioFast.Cache.PagerFailures
import SimplicioFast.Cache.PagerLeases
import SimplicioFast.Cache.Quarantine
import SimplicioFast.Cache.SingleFlightRuns
import SimplicioFast.Cache.Validation
import SimplicioFast.Catalog.Handles
import SimplicioFast.ChangeSet.Applied
import SimplicioFast.ChangeSet.JournalRecover
import SimplicioFast.ChangeSet.RoundTrip
import SimplicioFast.Context.Omissions
import SimplicioFast.CrossRepo.Unambiguous
import SimplicioFast.Daemon.Isolation
import SimplicioFast.Daemon.Pins
import SimplicioFast.Daemon.Requests
import SimplicioFast.Daemon.Workers
import SimplicioFast.Delivery.Atomic
import SimplicioFast.Delivery.Idempotence
import SimplicioFast.Deltas.Handoff
import SimplicioFast.Deltas.Paths
import SimplicioFast.Federation.Impact
import SimplicioFast.Federation.Traverse
import SimplicioFast.Ipc.Decoder
import SimplicioFast.Ipc.Errors
import SimplicioFast.Journal.Recover
import SimplicioFast.Knowledge.Projection
import SimplicioFast.Ledger.Replay
import SimplicioFast.Ledger.Reread
import SimplicioFast.Mapper.Lossless
import SimplicioFast.Operations.Projection
import SimplicioFast.Plugin.Budgets
import SimplicioFast.Policy.Selection
import SimplicioFast.Prism.Belongs
import SimplicioFast.Prism.Chains
import SimplicioFast.Prism.Live
import SimplicioFast.Projection.Applied
import SimplicioFast.Ranking.Agreement
import SimplicioFast.Route.Signals
import SimplicioFast.Rust.Panics
import SimplicioFast.Segments.CrashSafe
import SimplicioFast.Segments.PagerRuns
import SimplicioFast.Slots.Once
import SimplicioFast.Snapshot.Filtered
import SimplicioFast.Snapshot.Planner
import SimplicioFast.Snapshot.Readable
import SimplicioFast.Streaming.Rebuild
import SimplicioFast.Temporal.Persistent
import SimplicioFast.Vectors.Rotation
import SimplicioFast.Views.Authority
import SimplicioFast.Workspace.LeaseRuns
