import ETraceGen.Bpf.Provenance
import ETraceGen.Bpf.Misses
import ETraceGen.Bpf.FdReuse
import ETraceGen.Bpf.Mmsg
import ETraceGen.Bpf.DeadEntries
import ETraceGen.Bpf.FlowId
import ETraceGen.Bpf.FlowHash
import ETraceGen.Bpf.ByteCounts
import ETraceGen.Bpf.ReceivedAddress
import ETraceGen.Bpf.UnixNames
import ETraceGen.Normalizer
import ETraceGen.Registry.Identity
import ETraceGen.Registry.Reachable
import ETraceGen.Registry.Eviction
import ETraceGen.Registry.ExecPath
import ETraceGen.Registry.Creation
import ETraceGen.Registry.Tombstone
import ETraceGen.Registry.Attribution
import ETraceGen.Registry.Credentials
import ETraceGen.Registry.Lineage
import ETraceGen.Registry.Throttle
import ETraceGen.Transport
import ETraceGen.StatLine
import ETraceGen.Config.Order
import ETraceGen.Collector.Honesty
import ETraceGen.Wire
import ETraceGen.Outcome
import ETraceGen.Sink.RoundTrip
import ETraceGen.Sink.Encoding
import ETraceGen.Sink.File
import ETraceGen.Sink.Endpoint
import ETraceGen.Pipeline
import ETraceGen.Threads
import ETraceGen.Namespaces
import ETraceGen.Bpf.Isolation
import ETraceGen.Bpf.Counters
import ETraceGen.Bpf.Tracked
import ETraceGen.Collector.Stats
import ETraceGen.Collector.Lifecycle
import ETraceGen.Collector.Filters
import ETraceGen.System.Accounting
import ETraceGen.System.Clock
import ETraceGen.System.Crash
import ETraceGen.System.Main
import ETraceGen.System.Explained
import ETraceGen.System.Restart
import ETraceGen.Config.Document
