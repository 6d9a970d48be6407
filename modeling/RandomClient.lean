import RandomClient.History
import RandomClient.Plan
import RandomClient.Steps
import RandomClient.Refinement
import RandomClient.Queue
import RandomClient.Sends
import RandomClient.Equivocation
import RandomClient.Linkage
import RandomClient.Terminal
import RandomClient.Windows
import RandomClient.Freshness
import RandomClient.Lib.Confirmation
import RandomClient.Watch
import RandomClient.Sightings
import RandomClient.Freeze
import RandomClient.Staleness
import RandomClient.Regression
import RandomClient.Lib.SwapDelete
import RandomClient.Contract
import RandomClient.Enrollment
import RandomClient.Acceptance
import RandomClient.Shape
import RandomClient.EpochWindow
import RandomClient.Ledger
import RandomClient.Lib.Tally
import RandomClient.Counters
import RandomClient.Lib.Custody
import RandomClient.Tasks
import RandomClient.Ownership
import RandomClient.Isolation
import RandomClient.Run
import RandomClient.Shutdown
import RandomClient.Losses
import RandomClient.Attribution
import RandomClient.Outcomes
import RandomClient.Lib.Layout
import RandomClient.StatusOutput
import RandomClient.Separation
import RandomClient.Erasure
import RandomClient.Retained
import RandomClient.Hex
import RandomClient.Http
import RandomClient.Endpoint
import RandomClient.StatusCodec
import RandomClient.Extension
import RandomClient.TickChecks
import RandomClient.NewestCheck
import RandomClient.TickData
import RandomClient.Inclusion
import RandomClient.Room
import RandomClient.Schedule
import RandomClient.Punctual
import RandomClient.Solvency
import RandomClient.Entropy
import RandomClient.Collateral
import RandomClient.Returns
import RandomClient.Reporting
import RandomClient.Feedback
import RandomClient.Backend
import RandomClient.Lib.Json
import RandomClient.Bob
import RandomClient.Lib.Block
import RandomClient.Lightnode
import RandomClient.Rpc
import RandomClient.Backends
import RandomClient.Client
import RandomClient.Acknowledged
import RandomClient.Warmup
import RandomClient.Mirror
import RandomClient.Transparency
import RandomClient.Lib.Decimal
import RandomClient.Startup
import RandomClient.Deadline
