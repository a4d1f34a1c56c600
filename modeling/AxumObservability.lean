import AxumObservability.Library.Text
import AxumObservability.Library.Panics
import AxumObservability.Library.FieldMap
import AxumObservability.Library.Json
import AxumObservability.Library.JsonCodec
import AxumObservability.Library.Machines
import AxumObservability.Library.Ledger
import AxumObservability.Library.Decimal
import AxumObservability.RequestId
import AxumObservability.TraceContext
import AxumObservability.TraceState
import AxumObservability.NormalForm
import AxumObservability.Context
import AxumObservability.Http
import AxumObservability.Platform
import AxumObservability.Tracing
import AxumObservability.Formatter
import AxumObservability.EventFields
import AxumObservability.Framing
import AxumObservability.Concurrency
import AxumObservability.Linearization
import AxumObservability.Progress
import AxumObservability.Diagnostics
import AxumObservability.Config
import AxumObservability.Selection
import AxumObservability.Provenance
import AxumObservability.Constructors
import AxumObservability.Levels
import AxumObservability.Propagation
import AxumObservability.Terminal
import AxumObservability.AccessLine
import AxumObservability.Correlation
import AxumObservability.Enrichment
import AxumObservability.Durations
import AxumObservability.Service
import AxumObservability.Projection
import AxumObservability.Conventions
import AxumObservability.Lifecycle
import AxumObservability.EndOfStream
import AxumObservability.Stacks
import AxumObservability.StackRuns
import AxumObservability.Transparency
import AxumObservability.Privacy
import AxumObservability.Reports
import AxumObservability.Server
import AxumObservability.Isolation
import AxumObservability.Noninterference
import AxumObservability.ReadBack
import AxumObservability.ConcurrentLog
import AxumObservability.ServerLog
import AxumObservability.OptIn
import AxumObservability.Attribution
import AxumObservability.Identity
